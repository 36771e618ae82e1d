import Reedr.Auth.Sessions

/-!
# The clean-up goes unnoticed

What the nightly sweep deletes has expired, and an expired row is to `refresh`
what no row is. So two backends that differ in expired rows only cannot be told
apart by a call, now or later.
-/

namespace Reedr
open Relational Interleaving

/-- Statements on the refresh tokens. -/
def AuthStmt.onRefreshTokens : AuthStmt → Bool
  | findRefreshToken _ | revokeRefreshToken _ _ | revokeByTokenHash _ _ => true
  | createRefreshToken _ _ | deleteExpired _ | resetBatch _ _ _ _ => true
  | _ => false

/-- Statements to which an expired refresh token can make a difference. -/
def AuthStmt.needsRow : AuthStmt → Bool
  | findRefreshToken _ | revokeRefreshToken _ _ | deleteExpired _ => true
  | _ => false

namespace AuthBackend

/-- The backend with other refresh tokens. -/
def withRefreshTokens (s : AuthBackend) (refreshTokens : Table RefreshToken) : AuthBackend :=
  { s with tables := { s.tables with refreshTokens } }

/-- The two differ in refresh tokens that have expired, and in nothing else. -/
structure SameUnexpired (cfg : AuthConfig) (s t : AuthBackend) : Prop where
  rest : t = s.withRefreshTokens t.tables.refreshTokens
  unexpired : ∀ r, s.clock ≤ r.expiresAt →
    (r ∈ s.tables.refreshTokens ↔ r ∈ t.tables.refreshTokens)
  minted : s.Minted cfg
  minted' : t.Minted cfg

variable {cfg : AuthConfig} {s s' t t' : AuthBackend} {o : AuthStmt}

/-- Every other statement does without the refresh tokens. -/
theorem exec_withRefreshTokens (ho : o.onRefreshTokens = false)
    (refreshTokens : Table RefreshToken) :
    exec cfg o (s.withRefreshTokens refreshTokens) =
      (exec cfg o s).map fun r => (r.1, r.2.withRefreshTokens refreshTokens) := by
  cases o with
  | findRefreshToken tokenHash => exact nomatch ho
  | revokeRefreshToken id now => exact nomatch ho
  | revokeByTokenHash tokenHash now => exact nomatch ho
  | createRefreshToken userId expiresAt => exact nomatch ho
  | deleteExpired now => exact nomatch ho
  | resetBatch id userId password now => exact nomatch ho
  | createUser name phone password =>
      simp only [exec, onTables, AuthTables.createUser, withRefreshTokens, draw]
      cases s.tables.users.create { id := cfg.uuid s.drawn, name, phone, password } <;> rfl
  | replaceResetToken userId codeHash expiresAt now =>
      simp only [exec, onTables, AuthTables.replaceResetToken, withRefreshTokens, draw]
      cases s.tables.passwordResetTokens.updateMany
        (fun q => q.userId = userId ∧ q.usedAt = none) (.use now) with
      | error v => rfl
      | ok used =>
          simp only [bind, Except.bind]
          cases used.create { id := cfg.uuid s.drawn, userId, codeHash, expiresAt } <;> rfl
  | _ => rfl

/-- The batch never fails on account of the refresh tokens. -/
theorem exec_resetBatch_withRefreshTokens (id userId : Id) (password : String) (now : Millis)
    (refreshTokens : Table RefreshToken) :
    exec cfg (.resetBatch id userId password now) (s.withRefreshTokens refreshTokens) =
      (exec cfg (.resetBatch id userId password now) s).map fun r =>
        (r.1, r.2.withRefreshTokens (refreshTokens.modify
          (fun r => r.userId = userId ∧ r.revokedAt = none) (.revoke now) fun _ => rfl)) := by
  simp only [exec, onTables, AuthTables.resetBatch, withRefreshTokens,
    Table.updateMany_eq_modify _ _ (RefreshToken.revoke now) fun _ => rfl]
  cases s.tables.passwordResetTokens.update (fun r => r.id = id) (.use now) with
  | error v => rfl
  | ok code =>
      simp only [bind, Except.bind]
      cases s.tables.users.update (fun a => a.id = userId) fun a => { a with password } <;> rfl

theorem exec_revokeByTokenHash_withRefreshTokens (tokenHash : String) (now : Millis)
    (refreshTokens : Table RefreshToken) :
    exec cfg (.revokeByTokenHash tokenHash now) (s.withRefreshTokens refreshTokens) =
      (exec cfg (.revokeByTokenHash tokenHash now) s).map fun r =>
        (r.1, r.2.withRefreshTokens (refreshTokens.modify
          (fun r => r.tokenHash = tokenHash ∧ r.revokedAt = none) (.revoke now) fun _ => rfl)) := by
  simp only [exec, onTables, AuthTables.revokeByTokenHash, withRefreshTokens,
    Table.updateMany_eq_modify _ _ (RefreshToken.revoke now) fun _ => rfl]
  rfl

theorem exec_clock_le {b : o.Res} (h : exec cfg o s = .ok (b, s')) : s.clock ≤ s'.clock := by
  by_cases ho : o.passesTime = false
  · exact Nat.le_of_eq (exec_clock h ho).symm
  · cases o with
    | elapse duration =>
        cases h
        exact Nat.le_add_right _ _
    | _ => exact absurd rfl ho

namespace SameUnexpired

theorem refl (hs : s.Minted cfg) : SameUnexpired cfg s s :=
  ⟨rfl, fun _ _ => Iff.rfl, hs, hs⟩

theorem drawn_eq (h : SameUnexpired cfg s t) : t.drawn = s.drawn := by
  rw [h.rest]
  rfl

theorem clock_eq (h : SameUnexpired cfg s t) : t.clock = s.clock := by
  rw [h.rest]
  rfl

/-- Rewriting the rows in the same way keeps the unexpired ones the same. -/
theorem rewrites (h : SameUnexpired cfg s t) {ts ts' : Table RefreshToken}
    {f : RefreshToken → RefreshToken} (hf : ∀ r, (f r).expiresAt = r.expiresAt)
    (hs : s.tables.refreshTokens.Rewrites f ts) (ht : t.tables.refreshTokens.Rewrites f ts')
    (r : RefreshToken) (hr : s.clock ≤ r.expiresAt) : r ∈ ts ↔ r ∈ ts' := by
  rw [hs r, ht r]
  constructor
  · rintro ⟨q, hq, rfl⟩
    exact ⟨q, (h.unexpired q (hf q ▸ hr)).mp hq, rfl⟩
  · rintro ⟨q, hq, rfl⟩
    exact ⟨q, (h.unexpired q (hf q ▸ hr)).mpr hq, rfl⟩

/-- A statement agrees if it treats the unexpired rows of both in the same way. -/
theorem agrees (h : SameUnexpired cfg s t) {ts : Table RefreshToken}
    (ht : exec cfg o t = (exec cfg o s).map fun r => (r.1, r.2.withRefreshTokens ts))
    (hts : ∀ b s', exec cfg o s = .ok (b, s') → ∀ r, s'.clock ≤ r.expiresAt →
      (r ∈ s'.tables.refreshTokens ↔ r ∈ ts)) :
    (∀ b s', exec cfg o s = .ok (b, s') →
      ∃ t', exec cfg o t = .ok (b, t') ∧ SameUnexpired cfg s' t') ∧
      ∀ e, exec cfg o s = .error e → exec cfg o t = .error e := by
  constructor
  · intro b s' hx
    rw [hx] at ht
    exact ⟨_, ht, rfl, hts b s' hx, h.minted.exec hx, h.minted'.exec ht⟩
  · intro e hx
    rwa [hx] at ht

theorem agrees_other (ho : o.onRefreshTokens = false) :
    Call.Agrees (reliableDatabase cfg) (SameUnexpired cfg) o := by
  intro s t h
  apply h.agrees
  · rw [← exec_withRefreshTokens ho, ← h.rest]
  · intro b s' hx r hr
    -- Executed in `s` with its own refresh tokens, it leaves these as they are.
    have hkept : exec cfg o s = _ := exec_withRefreshTokens ho s.tables.refreshTokens
    have hsame : s' = s'.withRefreshTokens s.tables.refreshTokens := by
      rw [hx] at hkept
      simpa [Except.map] using hkept
    rw [hsame]
    exact h.unexpired r (Nat.le_trans (exec_clock_le hx) hr)

theorem agrees_revokeByTokenHash (tokenHash : String) (now : Millis) :
    Call.Agrees (reliableDatabase cfg) (SameUnexpired cfg)
      (.revokeByTokenHash tokenHash now) := by
  intro s t h
  apply h.agrees (o := .revokeByTokenHash tokenHash now)
  · rw [← exec_revokeByTokenHash_withRefreshTokens, ← h.rest]
  · intro b s' hx r hr
    have hclock := exec_clock hx rfl
    obtain ⟨ts, hu, rfl⟩ := exec_revokeByTokenHash hx
    apply h.rewrites _ (.of_updateMany hu) fun _ => Table.mem_modify
    · exact hclock ▸ hr
    · intro r
      split <;> rfl

theorem agrees_resetBatch (id userId : Id) (password : String) (now : Millis) :
    Call.Agrees (reliableDatabase cfg) (SameUnexpired cfg)
      (.resetBatch id userId password now) := by
  intro s t h
  apply h.agrees (o := .resetBatch id userId password now)
  · rw [← exec_resetBatch_withRefreshTokens, ← h.rest]
  · intro b s' hx r hr
    have hclock := exec_clock hx rfl
    have hrewrites := (exec_resetBatch hx).2.2.1
    apply h.rewrites _ hrewrites
    · intro q
      refine Table.mem_modify.trans (exists_congr fun r => ?_)
      simp
    · exact hclock ▸ hr
    · intro r
      split <;> rfl

theorem agrees_createRefreshToken (userId : Id) (expiresAt : Millis) :
    Call.Agrees (reliableDatabase cfg) (SameUnexpired cfg)
      (.createRefreshToken userId expiresAt) := by
  intro s t h
  obtain ⟨s₁, hs⟩ := exec_createRefreshToken_ok h.minted userId expiresAt
  obtain ⟨t₁, ht⟩ := exec_createRefreshToken_ok h.minted' userId expiresAt
  constructor
  · intro b s' hx
    cases hs.symm.trans hx
    refine ⟨t₁, h.drawn_eq ▸ ht, ?_⟩
    have hsclock := exec_clock hs rfl
    obtain ⟨-, ts, hsc, rfl⟩ := exec_createRefreshToken hs
    obtain ⟨-, ts', htc, rfl⟩ := exec_createRefreshToken ht
    refine ⟨?_, ?_, h.minted.exec hs, h.minted'.exec ht⟩
    · rw [h.rest]
      rfl
    · intro r hr
      have hnext : t.nextRefreshToken cfg userId expiresAt =
          s.nextRefreshToken cfg userId expiresAt := by
        simp only [nextRefreshToken, h.drawn_eq]
      rw [hnext] at htc
      exact (Table.mem_create hsc r).trans
        ((or_congr_left (h.unexpired r hr)).trans (Table.mem_create htc r).symm)
  · intro e hx
    cases hs.symm.trans hx

/-- Wherever an expired row makes no difference, it goes unnoticed. -/
theorem agrees_of_needsRow (ho : o.needsRow = false) :
    Call.Agrees (reliableDatabase cfg) (SameUnexpired cfg) o := by
  cases o with
  | findRefreshToken tokenHash => exact nomatch ho
  | revokeRefreshToken id now => exact nomatch ho
  | deleteExpired now => exact nomatch ho
  | revokeByTokenHash tokenHash now => exact agrees_revokeByTokenHash tokenHash now
  | resetBatch id userId password now => exact agrees_resetBatch id userId password now
  | createRefreshToken userId expiresAt => exact agrees_createRefreshToken userId expiresAt
  | _ => exact agrees_other rfl

/-- A token is valid in both or in neither. -/
theorem valid_iff (h : SameUnexpired cfg s t) (x : String) (userId : Id) (e : Millis) :
    s.Valid cfg x userId e ↔ t.Valid cfg x userId e := by
  unfold Valid
  rw [h.clock_eq]
  refine and_congr_right fun hlater => ?_
  constructor
  · rintro ⟨r, hr, hhash, huser, rfl, hopen⟩
    exact ⟨r, (h.unexpired r hlater).mp hr, hhash, huser, rfl, hopen⟩
  · rintro ⟨r, hr, hhash, huser, rfl, hopen⟩
    exact ⟨r, (h.unexpired r hlater).mpr hr, hhash, huser, rfl, hopen⟩

end SameUnexpired

/-- The sweep deletes nothing but expired rows. -/
theorem sameUnexpired_deleteExpired (h : SameUnexpired cfg s t) :
    SameUnexpired cfg { s with tables := (s.tables.deleteExpired s.clock).2 } t where
  rest := by
    rw [h.rest]
    rfl
  unexpired r hr := by
    rw [← h.unexpired r hr]
    simp [AuthTables.deleteExpired, Table.mem_delete, hr]
  minted := h.minted.exec (o := .deleteExpired s.clock) rfl
  minted' := h.minted'

/-- The revocation of a row that both have. -/
theorem SameUnexpired.revokeRefreshToken (h : SameUnexpired cfg s t) {id : Id} {now : Millis}
    {r q : RefreshToken} (hs : exec cfg (.revokeRefreshToken id now) s = .ok (r, s'))
    (ht : exec cfg (.revokeRefreshToken id now) t = .ok (q, t')) : SameUnexpired cfg s' t' := by
  have hclock := exec_clock hs rfl
  have hminted := h.minted.exec hs
  have hminted' := h.minted'.exec ht
  obtain ⟨ts, -, hu, rfl⟩ := exec_revokeRefreshToken hs
  obtain ⟨ts', -, hu', rfl⟩ := exec_revokeRefreshToken ht
  refine ⟨?_, ?_, hminted, hminted'⟩
  · rw [h.rest]
    rfl
  · apply h.rewrites _ (.of_updateMany hu) (.of_updateMany hu')
    intro r
    split <;> rfl

end AuthBackend

section Alike
variable {cfg : AuthConfig} {s t : AuthBackend}

private theorem issuesWith_agrees :
    IssuesWith (Call.Agrees (reliableDatabase cfg) (AuthBackend.SameUnexpired cfg)) := by
  constructor <;> intros <;> exact AuthBackend.SameUnexpired.agrees_of_needsRow rfl

/-- A token that is not valid is rejected, and nothing happens. -/
theorem refresh_rejects {x : String} (h : ∀ userId e, ¬ s.Valid cfg x userId e)
    (refusals : List Bool) :
    ((AuthInvocation.refresh x).code cfg).alone (reliableDatabase cfg) refusals s =
      (.error (.unauthorized "Invalid or expired refresh token"), s) := by
  simp only [AuthInvocation.code, AuthController.answer, AuthService.refresh, bind_assoc]
  rw [Call.alone_step rfl rfl]
  cases hfind : s.tables.findRefreshToken (cfg.hashToken x) with
  | none => rfl
  | some r =>
      rw [Call.required_some, Call.done_bind]
      by_cases hopen : r.revokedAt = none
      · have hexpired : r.expiresAt < s.clock := by
          by_contra htime
          exact h _ _ (AuthBackend.valid_iff_find.mpr ⟨r, hfind, hopen, htime, rfl, rfl⟩)
        rw [Call.ensure, if_pos hopen, Call.done_bind, Call.alone_step rfl rfl, Call.ensure,
          if_neg (not_not.mpr hexpired)]
        rfl
      · rw [Call.ensure, if_neg hopen]
        rfl

/-- A valid token is rotated in both in the same way. -/
theorem refresh_alike_valid {x : String} {userId : Id} {e : Millis}
    (h : AuthBackend.SameUnexpired cfg s t) (hvalid : s.Valid cfg x userId e) :
    Call.Alike (reliableDatabase cfg) (AuthBackend.SameUnexpired cfg)
      ((AuthInvocation.refresh x).code cfg) s ((AuthInvocation.refresh x).code cfg) t := by
  obtain ⟨r, hfind, hopen, htime, -, rfl⟩ := AuthBackend.valid_iff_find.mp hvalid
  obtain ⟨hr, hhash⟩ := AuthTables.findRefreshToken_eq_some.mp hfind
  have hr' := (h.unexpired r (Nat.not_lt.mp htime)).mp hr
  have hfind' := AuthTables.findRefreshToken_eq_some.mpr ⟨hr', hhash⟩
  simp only [AuthInvocation.code, AuthController.answer, AuthService.refresh, bind_assoc]
  apply Call.Alike.perform_bind rfl rfl rfl
  rw [hfind, hfind', Call.required_some, Call.done_bind, Call.ensure, if_pos hopen, Call.done_bind]
  apply Call.Alike.perform_bind rfl rfl rfl
  rw [h.clock_eq, Call.ensure, if_pos htime, Call.done_bind]
  apply Call.Alike.perform_bind rfl rfl rfl
  rw [h.clock_eq]
  obtain ⟨q, s', hs⟩ := AuthBackend.exec_revokeRefreshToken_ok hr s.clock
  obtain ⟨q', t', ht⟩ := AuthBackend.exec_revokeRefreshToken_ok hr' s.clock
  apply Call.Alike.perform_bind rfl hs ht
  apply Call.Alike.of_uses _ (h.revokeRefreshToken hs ht)
  apply Call.Uses.bind (.perform (AuthBackend.SameUnexpired.agrees_of_needsRow rfl))
  intro found
  apply Call.Uses.bind (.required found _)
  intro user
  apply answer_uses issuesWith_agrees
  exact issueTokenPair_uses issuesWith_agrees _ _

/-- Every call but the sweep is alike in the two. -/
theorem code_alike {i : AuthInvocation} (hi : i ≠ .removeExpiredRefreshTokens)
    (h : AuthBackend.SameUnexpired cfg s t) :
    Call.Alike (reliableDatabase cfg) (AuthBackend.SameUnexpired cfg) (i.code cfg) s
      (i.code cfg) t := by
  have agrees {o : AuthStmt} (ho : o.needsRow = false) :
      Call.Agrees (reliableDatabase cfg) (AuthBackend.SameUnexpired cfg) o :=
    AuthBackend.SameUnexpired.agrees_of_needsRow ho
  cases i with
  | removeExpiredRefreshTokens => exact absurd rfl hi
  | refresh x =>
      by_cases hvalid : ∃ userId e, s.Valid cfg x userId e
      · obtain ⟨userId, e, hvalid⟩ := hvalid
        exact refresh_alike_valid h hvalid
      · intro refusals
        have hinvalid : ∀ userId e, ¬ s.Valid cfg x userId e :=
          fun userId e hv => hvalid ⟨userId, e, hv⟩
        rw [refresh_rejects hinvalid, refresh_rejects fun userId e hv =>
          hinvalid userId e ((h.valid_iff x userId e).mpr hv)]
        exact ⟨rfl, h⟩
  | register dto =>
      apply Call.Alike.of_uses _ h
      apply answer_uses issuesWith_agrees
      exact register_uses issuesWith_agrees (fun _ _ => agrees rfl) (fun _ _ _ => agrees rfl) dto
  | login dto =>
      apply Call.Alike.of_uses _ h
      apply answer_uses issuesWith_agrees
      exact login_uses issuesWith_agrees (fun _ _ => agrees rfl) dto
  | forgotPassword dto =>
      apply Call.Alike.of_uses _ h
      apply forgotPassword_uses dto <;> intros <;> exact agrees rfl
  | resetPassword dto =>
      apply Call.Alike.of_uses _ h
      apply resetPassword_uses dto <;> intros <;> exact agrees rfl
  | logout x =>
      apply Call.Alike.of_uses _ h
      exact logout_uses (agrees rfl) (fun _ _ => agrees rfl) x
  | elapse duration =>
      apply Call.Alike.of_uses _ h
      exact .perform (agrees rfl)

theorem removeExpiredRefreshTokens_alone (h : AuthBackend.SameUnexpired cfg s t)
    (refusals : List Bool) : AuthBackend.SameUnexpired cfg
      ((AuthInvocation.removeExpiredRefreshTokens.code cfg).alone (reliableDatabase cfg)
        refusals s).2 t := by
  have halone : ((AuthInvocation.removeExpiredRefreshTokens.code cfg).alone
      (reliableDatabase cfg) refusals s).2 =
        { s with tables := (s.tables.deleteExpired s.clock).2 } := by
    simp only [AuthInvocation.code, TokenCleanupService.removeExpiredRefreshTokens]
    rw [Call.alone_step rfl rfl, Call.alone_step rfl rfl]
    rfl
  rw [halone]
  exact AuthBackend.sameUnexpired_deleteExpired h

end Alike

end Reedr
