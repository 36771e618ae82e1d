import Reedr.Auth.Backend

/-!
# What a successful auth statement does

One relation for each of the tables the sessions of a user depend on, with one
case per kind of write. Later proofs use these and do not unfold a statement
again.
-/

namespace Reedr
open Relational Interleaving

namespace AuthTables
variable {db : AuthTables}

theorem findUserByPhone_some {phone : String} {a : Account}
    (h : db.findUserByPhone phone = some a) : a ∈ db.users ∧ a.phone = phone :=
  ⟨(Table.find?_some h).1, of_decide_eq_true (Table.find?_some h).2⟩

theorem findUserByPhone_none {phone : String} (h : db.findUserByPhone phone = none) :
    ∀ a ∈ db.users, a.phone ≠ phone :=
  fun a ha => of_decide_eq_false (Table.find?_none h a ha)

theorem findUser_some {id : Id} {a : Account} (h : db.findUser id = some a) :
    a ∈ db.users ∧ a.id = id :=
  ⟨(Table.find?_some h).1, of_decide_eq_true (Table.find?_some h).2⟩

theorem findUser_isSome {id : Id} (h : ∃ a ∈ db.users, a.id = id) :
    ∃ a, db.findUser id = some a := by
  obtain ⟨a, ha, hid⟩ := h
  cases hf : db.findUser id with
  | none => exact absurd hid (of_decide_eq_false (Table.find?_none hf a ha))
  | some b => exact ⟨b, rfl⟩

theorem findRefreshToken_eq_some {tokenHash : String} {r : RefreshToken} :
    db.findRefreshToken tokenHash = some r ↔ r ∈ db.refreshTokens ∧ r.tokenHash = tokenHash := by
  constructor
  · intro h
    exact ⟨(Table.find?_some h).1, of_decide_eq_true (Table.find?_some h).2⟩
  · rintro ⟨hr, rfl⟩
    apply Table.find?_of_unique hr (decide_eq_true rfl)
    intro x hx hp
    exact RefreshToken.eq_of_tokenHash hx hr (of_decide_eq_true hp)

theorem findResetToken_some {userId : Id} {codeHash : String} {now : Millis}
    {r : PasswordResetToken} (h : db.findResetToken userId codeHash now = some r) :
    r ∈ db.passwordResetTokens ∧ r.userId = userId ∧ r.codeHash = codeHash ∧ r.usedAt = none ∧
      now < r.expiresAt :=
  ⟨(Table.find?_some h).1, of_decide_eq_true (Table.find?_some h).2⟩

theorem findResetToken_none {userId : Id} {codeHash : String} {now : Millis}
    (h : db.findResetToken userId codeHash now = none) : ∀ r ∈ db.passwordResetTokens,
      ¬ (r.userId = userId ∧ r.codeHash = codeHash ∧ r.usedAt = none ∧ now < r.expiresAt) :=
  fun r hr => of_decide_eq_false (Table.find?_none h r hr)

end AuthTables

/-- What becomes of a refresh token in a statement that may revoke it. -/
def AuthStmt.onRefreshToken (o : AuthStmt) (now : Millis) (r : RefreshToken) : RefreshToken :=
  if o.revokes r then r.revoke now else r

section OnRefreshToken
variable (o : AuthStmt) (now : Millis) (r : RefreshToken)

@[simp] theorem AuthStmt.onRefreshToken_id : (o.onRefreshToken now r).id = r.id := by
  unfold onRefreshToken
  split <;> rfl

@[simp] theorem AuthStmt.onRefreshToken_userId : (o.onRefreshToken now r).userId = r.userId := by
  unfold onRefreshToken
  split <;> rfl

@[simp] theorem AuthStmt.onRefreshToken_tokenHash :
    (o.onRefreshToken now r).tokenHash = r.tokenHash := by
  unfold onRefreshToken
  split <;> rfl

@[simp] theorem AuthStmt.onRefreshToken_expiresAt :
    (o.onRefreshToken now r).expiresAt = r.expiresAt := by
  unfold onRefreshToken
  split <;> rfl

/-- It is open afterwards if it was and has not been revoked now. -/
@[simp] theorem AuthStmt.onRefreshToken_open :
    (o.onRefreshToken now r).revokedAt = none ↔ r.revokedAt = none ∧ o.revokes r = false := by
  unfold onRefreshToken
  split
  · next h => simp [RefreshToken.revoke, h]
  · next h => simp [h]

end OnRefreshToken

/-- Statements that replace or use up the reset code of a user. -/
def AuthStmt.settles (userId : Id) : AuthStmt → Bool
  | replaceResetToken id _ _ _ | resetBatch _ id _ _ => id = userId
  | _ => false

namespace AuthBackend

/-- What a statement did to the refresh tokens. -/
inductive TokensWrote (cfg : AuthConfig) (s s' : AuthBackend) : AuthStmt → Prop where
  | revoked {o} (now : Millis)
      (h : s.tables.refreshTokens.Rewrites (o.onRefreshToken now) s'.tables.refreshTokens) :
      TokensWrote cfg s s' o
  | created {userId expiresAt} (hdrawn : s'.drawn = s.drawn + 1)
      (h : s.tables.refreshTokens.Extends (s.nextRefreshToken cfg userId expiresAt)
        s'.tables.refreshTokens) : TokensWrote cfg s s' (.createRefreshToken userId expiresAt)
  | deleted {now} (h : ∀ r, r ∈ s'.tables.refreshTokens ↔
      r ∈ s.tables.refreshTokens ∧ now ≤ r.expiresAt) : TokensWrote cfg s s' (.deleteExpired now)

/-- What a statement did to the users. -/
inductive UsersWrote (s s' : AuthBackend) : AuthStmt → Prop where
  | kept {o} (ho : ∀ userId, o.resets userId = false) (h : s'.tables.users = s.tables.users) :
      UsersWrote s s' o
  | created {name phone password} (a : Account) (hfresh : ∀ x ∈ s.tables.users, x.id ≠ a.id)
      (h : s.tables.users.Extends a s'.tables.users) :
      UsersWrote s s' (.createUser name phone password)
  | reset {id userId password now} (huser : ∃ a ∈ s.tables.users, a.id = userId)
      (h : s.tables.users.Rewrites (fun a => if a.id = userId then { a with password } else a)
        s'.tables.users) : UsersWrote s s' (.resetBatch id userId password now)

/-- What a statement did to the reset codes. -/
inductive CodesWrote (cfg : AuthConfig) (s s' : AuthBackend) : AuthStmt → Prop where
  | kept {o} (ho : ∀ userId, o.settles userId = false)
      (h : s'.tables.passwordResetTokens = s.tables.passwordResetTokens) : CodesWrote cfg s s' o
  | replaced {userId codeHash expiresAt now} (used : Table PasswordResetToken)
      (hdrawn : s'.drawn = s.drawn + 1)
      (hused : s.tables.passwordResetTokens.Rewrites
        (fun q => if q.userId = userId ∧ q.usedAt = none then q.use now else q) used)
      (h : used.Extends { id := cfg.uuid s.drawn, userId, codeHash, expiresAt }
        s'.tables.passwordResetTokens) :
      CodesWrote cfg s s' (.replaceResetToken userId codeHash expiresAt now)
  | used {id userId password now}
      (h : s.tables.passwordResetTokens.Rewrites (fun r => if r.id = id then r.use now else r)
        s'.tables.passwordResetTokens) : CodesWrote cfg s s' (.resetBatch id userId password now)

theorem onTables_ok {α : Type} {s s' : AuthBackend} {a : α}
    {f : AuthTables → Except Violation (α × AuthTables)} (h : s.onTables f = .ok (a, s')) :
    ∃ db', f s.tables = .ok (a, db') ∧ s' = { s with tables := db' } := by
  unfold onTables at h
  split at h
  · next hf =>
      cases h
      exact ⟨_, hf, rfl⟩
  · cases h

theorem onTables_of_ok {α : Type} {s : AuthBackend} {a : α}
    {f : AuthTables → Except Violation (α × AuthTables)} {db' : AuthTables}
    (h : f s.tables = .ok (a, db')) : s.onTables f = .ok (a, { s with tables := db' }) := by
  unfold onTables
  rw [h]

variable {cfg : AuthConfig} {o : AuthStmt} {s s' : AuthBackend}

private theorem tokens_same (hrevokes : ∀ r, o.revokes r = false)
    (h : s'.tables.refreshTokens = s.tables.refreshTokens) : TokensWrote cfg s s' o := by
  refine .revoked 0 ?_
  rw [h]
  exact (Table.Rewrites.refl _).congr fun r => by simp [AuthStmt.onRefreshToken, hrevokes]

theorem exec_createUser {name phone password : String} {a : Account}
    (h : exec cfg (.createUser name phone password) s = .ok (a, s')) :
    ∃ users, s.tables.users.create a = .ok users ∧
      a = { id := cfg.uuid s.drawn, name, phone, password } ∧
      s' = { s.draw with tables := { s.tables with users } } := by
  simp only [exec] at h
  obtain ⟨db', hf, rfl⟩ := onTables_ok h
  obtain ⟨users, hc, hdb⟩ := bind_eq_ok.mp hf
  cases hdb
  exact ⟨users, hc, rfl, rfl⟩

theorem exec_createRefreshToken {userId : Id} {expiresAt : Millis} {token : String}
    (h : exec cfg (.createRefreshToken userId expiresAt) s = .ok (token, s')) :
    token = cfg.randomBytes s.drawn ∧ ∃ refreshTokens,
      s.tables.refreshTokens.create (s.nextRefreshToken cfg userId expiresAt) =
        .ok refreshTokens ∧ s' = { s.draw with tables := { s.tables with refreshTokens } } := by
  simp only [exec] at h
  split at h
  · next hx =>
      cases h
      obtain ⟨db', hf, rfl⟩ := onTables_ok hx
      obtain ⟨refreshTokens, hc, hdb⟩ := bind_eq_ok.mp hf
      cases hdb
      exact ⟨rfl, refreshTokens, hc, rfl⟩
  · cases h

theorem exec_revokeRefreshToken {id : Id} {now : Millis} {r : RefreshToken}
    (h : exec cfg (.revokeRefreshToken id now) s = .ok (r, s')) :
    ∃ refreshTokens, (∃ q ∈ s.tables.refreshTokens, q.id = id) ∧
      s.tables.refreshTokens.updateMany (fun r => r.id = id) (.revoke now) = .ok refreshTokens ∧
      s' = { s with tables := { s.tables with refreshTokens } } := by
  simp only [exec] at h
  obtain ⟨db', hf, rfl⟩ := onTables_ok h
  obtain ⟨⟨q, refreshTokens⟩, hu, hdb⟩ := bind_eq_ok.mp hf
  cases hdb
  obtain ⟨q, hq, hid, -, rfl, hmany⟩ := Table.update_ok hu
  exact ⟨refreshTokens, ⟨q, hq, of_decide_eq_true hid⟩, hmany, rfl⟩

theorem exec_revokeByTokenHash {tokenHash : String} {now : Millis}
    (h : exec cfg (.revokeByTokenHash tokenHash now) s = .ok ((), s')) :
    ∃ refreshTokens, s.tables.refreshTokens.updateMany
        (fun r => r.tokenHash = tokenHash ∧ r.revokedAt = none) (.revoke now) =
          .ok refreshTokens ∧
      s' = { s with tables := { s.tables with refreshTokens } } := by
  simp only [exec] at h
  obtain ⟨db', hf, rfl⟩ := onTables_ok h
  obtain ⟨refreshTokens, hu, hdb⟩ := bind_eq_ok.mp hf
  cases hdb
  exact ⟨refreshTokens, hu, rfl⟩

/-- The three writes of a reset, all of which went through. -/
theorem exec_resetBatch {id userId : Id} {password : String} {now : Millis}
    (h : exec cfg (.resetBatch id userId password now) s = .ok ((), s')) :
    (∃ a ∈ s.tables.users, a.id = userId) ∧
      s.tables.users.Rewrites (fun a => if a.id = userId then { a with password } else a)
        s'.tables.users ∧
      s.tables.refreshTokens.Rewrites
        (fun r => if r.userId = userId ∧ r.revokedAt = none then r.revoke now else r)
        s'.tables.refreshTokens ∧
      s.tables.passwordResetTokens.Rewrites (fun r => if r.id = id then r.use now else r)
        s'.tables.passwordResetTokens ∧
      s' = { s with tables := s'.tables } := by
  simp only [exec] at h
  obtain ⟨db', hf, rfl⟩ := onTables_ok h
  obtain ⟨⟨q, passwordResetTokens⟩, hcode, hf⟩ := bind_eq_ok.mp hf
  obtain ⟨⟨a, users⟩, huser, hf⟩ := bind_eq_ok.mp hf
  obtain ⟨refreshTokens, htokens, hdb⟩ := bind_eq_ok.mp hf
  cases hdb
  obtain ⟨a, ha, hid, -, rfl, hmany⟩ := Table.update_ok huser
  obtain ⟨r, -, -, -, rfl, hused⟩ := Table.update_ok hcode
  refine ⟨⟨a, ha, of_decide_eq_true hid⟩, ?_, ?_, ?_, rfl⟩
  · exact (Table.Rewrites.of_updateMany hmany).congr fun a => by simp
  · exact (Table.Rewrites.of_updateMany htokens).congr fun r => by simp
  · exact (Table.Rewrites.of_updateMany hused).congr fun r => by simp

theorem exec_replaceResetToken {userId : Id} {codeHash : String} {expiresAt now : Millis}
    {r : PasswordResetToken}
    (h : exec cfg (.replaceResetToken userId codeHash expiresAt now) s = .ok (r, s')) :
    r = { id := cfg.uuid s.drawn, userId, codeHash, expiresAt } ∧
      ∃ used passwordResetTokens, s.tables.passwordResetTokens.updateMany
          (fun q => q.userId = userId ∧ q.usedAt = none) (.use now) = .ok used ∧
        used.create r = .ok passwordResetTokens ∧
        s' = { s.draw with tables := { s.tables with passwordResetTokens } } := by
  simp only [exec] at h
  obtain ⟨db', hf, rfl⟩ := onTables_ok h
  obtain ⟨used, hu, hf⟩ := bind_eq_ok.mp hf
  obtain ⟨passwordResetTokens, hc, hdb⟩ := bind_eq_ok.mp hf
  cases hdb
  exact ⟨rfl, used, passwordResetTokens, hu, hc, rfl⟩

theorem exec_tokens {b : o.Res} (h : exec cfg o s = .ok (b, s')) : TokensWrote cfg s s' o := by
  cases o with
  | createUser name phone password =>
      obtain ⟨users, -, -, rfl⟩ := exec_createUser h
      exact tokens_same (fun _ => rfl) rfl
  | createRefreshToken userId expiresAt =>
      obtain ⟨-, refreshTokens, hc, rfl⟩ := exec_createRefreshToken h
      exact .created rfl (.of_create hc)
  | revokeRefreshToken id now =>
      obtain ⟨refreshTokens, -, hu, rfl⟩ := exec_revokeRefreshToken h
      exact .revoked now (.of_updateMany hu)
  | revokeByTokenHash tokenHash now =>
      obtain ⟨refreshTokens, hu, rfl⟩ := exec_revokeByTokenHash h
      exact .revoked now (.of_updateMany hu)
  | resetBatch id userId password now =>
      refine .revoked now ((exec_resetBatch h).2.2.1.congr fun r => ?_)
      simp [AuthStmt.onRefreshToken, AuthStmt.revokes]
  | replaceResetToken userId codeHash expiresAt now =>
      obtain ⟨-, -, passwordResetTokens, -, -, rfl⟩ := exec_replaceResetToken h
      exact tokens_same (fun _ => rfl) rfl
  | deleteExpired now =>
      cases h
      refine .deleted fun r => ?_
      simp [AuthTables.deleteExpired, Table.mem_delete]
  | _ =>
      cases h
      exact tokens_same (fun _ => rfl) rfl

theorem exec_onRefreshToken {b : o.Res} (h : exec cfg o s = .ok (b, s'))
    (ho : o.movesRefreshTokens = false) : ∃ now,
      s.tables.refreshTokens.Rewrites (o.onRefreshToken now) s'.tables.refreshTokens := by
  cases exec_tokens h with
  | revoked now hrewrites => exact ⟨now, hrewrites⟩
  | created hnext hextends => exact nomatch ho
  | deleted hdelete => exact nomatch ho

theorem exec_users {b : o.Res} (h : exec cfg o s = .ok (b, s')) : UsersWrote s s' o := by
  cases o with
  | createUser name phone password =>
      obtain ⟨users, hc, -, rfl⟩ := exec_createUser h
      refine .created b (fun x hx hid => ?_) (.of_create hc)
      apply Table.not_clash_of_create hc x hx
      exact ⟨.id x.id, by simp [Keyed.keys], by simp [Keyed.keys, hid]⟩
  | createRefreshToken userId expiresAt =>
      obtain ⟨-, refreshTokens, -, rfl⟩ := exec_createRefreshToken h
      exact .kept (fun _ => rfl) rfl
  | revokeRefreshToken id now =>
      obtain ⟨refreshTokens, -, -, rfl⟩ := exec_revokeRefreshToken h
      exact .kept (fun _ => rfl) rfl
  | revokeByTokenHash tokenHash now =>
      obtain ⟨refreshTokens, -, rfl⟩ := exec_revokeByTokenHash h
      exact .kept (fun _ => rfl) rfl
  | resetBatch id userId password now =>
      obtain ⟨huser, hrewrites, -⟩ := exec_resetBatch h
      exact .reset huser hrewrites
  | replaceResetToken userId codeHash expiresAt now =>
      obtain ⟨-, -, passwordResetTokens, -, -, rfl⟩ := exec_replaceResetToken h
      exact .kept (fun _ => rfl) rfl
  | _ =>
      cases h
      exact .kept (fun _ => rfl) rfl

theorem exec_codes {b : o.Res} (h : exec cfg o s = .ok (b, s')) : CodesWrote cfg s s' o := by
  cases o with
  | createUser name phone password =>
      obtain ⟨users, -, -, rfl⟩ := exec_createUser h
      exact .kept (fun _ => rfl) rfl
  | createRefreshToken userId expiresAt =>
      obtain ⟨-, refreshTokens, -, rfl⟩ := exec_createRefreshToken h
      exact .kept (fun _ => rfl) rfl
  | revokeRefreshToken id now =>
      obtain ⟨refreshTokens, -, -, rfl⟩ := exec_revokeRefreshToken h
      exact .kept (fun _ => rfl) rfl
  | revokeByTokenHash tokenHash now =>
      obtain ⟨refreshTokens, -, rfl⟩ := exec_revokeByTokenHash h
      exact .kept (fun _ => rfl) rfl
  | resetBatch id userId password now =>
      obtain ⟨-, -, -, hused, -⟩ := exec_resetBatch h
      exact .used hused
  | replaceResetToken userId codeHash expiresAt now =>
      obtain ⟨rfl, used, passwordResetTokens, hu, hc, rfl⟩ := exec_replaceResetToken h
      apply CodesWrote.replaced used rfl
      · exact (Table.Rewrites.of_updateMany hu).congr fun q => by simp
      · exact .of_create hc
  | _ =>
      cases h
      exact .kept (fun _ => rfl) rfl

/-- The random source only moves on. -/
theorem exec_drawn {b : o.Res} (h : exec cfg o s = .ok (b, s')) : s.drawn ≤ s'.drawn := by
  cases o with
  | createUser name phone password =>
      obtain ⟨users, -, -, rfl⟩ := exec_createUser h
      exact Nat.le_succ _
  | createRefreshToken userId expiresAt =>
      obtain ⟨-, refreshTokens, -, rfl⟩ := exec_createRefreshToken h
      exact Nat.le_succ _
  | revokeRefreshToken id now =>
      obtain ⟨refreshTokens, -, -, rfl⟩ := exec_revokeRefreshToken h
      exact Nat.le_refl _
  | revokeByTokenHash tokenHash now =>
      obtain ⟨refreshTokens, -, rfl⟩ := exec_revokeByTokenHash h
      exact Nat.le_refl _
  | resetBatch id userId password now =>
      obtain ⟨-, -, -, -, hs⟩ := exec_resetBatch h
      exact Nat.le_of_eq (congrArg drawn hs).symm
  | replaceResetToken userId codeHash expiresAt now =>
      obtain ⟨-, -, passwordResetTokens, -, -, rfl⟩ := exec_replaceResetToken h
      exact Nat.le_succ _
  | bcryptHash data rounds =>
      cases h
      exact Nat.le_succ _
  | randomInt min max =>
      cases h
      exact Nat.le_succ _
  | _ =>
      cases h
      exact Nat.le_refl _

/-- The clock moves only when time passes. -/
theorem exec_clock {b : o.Res} (h : exec cfg o s = .ok (b, s')) (ho : o.passesTime = false) :
    s'.clock = s.clock := by
  cases o with
  | createUser name phone password =>
      obtain ⟨users, -, -, rfl⟩ := exec_createUser h
      rfl
  | createRefreshToken userId expiresAt =>
      obtain ⟨-, refreshTokens, -, rfl⟩ := exec_createRefreshToken h
      rfl
  | revokeRefreshToken id now =>
      obtain ⟨refreshTokens, -, -, rfl⟩ := exec_revokeRefreshToken h
      rfl
  | revokeByTokenHash tokenHash now =>
      obtain ⟨refreshTokens, -, rfl⟩ := exec_revokeByTokenHash h
      rfl
  | resetBatch id userId password now =>
      obtain ⟨-, -, -, -, hs⟩ := exec_resetBatch h
      have hclock := congrArg clock hs
      exact hclock
  | replaceResetToken userId codeHash expiresAt now =>
      obtain ⟨-, -, passwordResetTokens, -, -, rfl⟩ := exec_replaceResetToken h
      rfl
  | elapse duration => exact nomatch ho
  | _ =>
      cases h
      rfl

/-- No user is ever deleted. -/
theorem exec_hasUser {b : o.Res} (h : exec cfg o s = .ok (b, s')) {userId : Id}
    (huser : ∃ a ∈ s.tables.users, a.id = userId) : ∃ a ∈ s'.tables.users, a.id = userId := by
  obtain ⟨a, ha, rfl⟩ := huser
  cases exec_users h with
  | kept _ hsame => exact ⟨a, hsame ▸ ha, rfl⟩
  | created new _ hextends => exact ⟨a, hextends.mem_old ha, rfl⟩
  | reset _ hrewrites =>
      refine ⟨_, hrewrites.mem ha, ?_⟩
      split <;> rfl

/-- Every token row was stored with the values of one draw. -/
def Minted (cfg : AuthConfig) (s : AuthBackend) : Prop :=
  ∀ r ∈ s.tables.refreshTokens, ∃ k < s.drawn, r.id = cfg.uuid k ∧
    r.tokenHash = cfg.hashToken (cfg.randomBytes k)

theorem minted_signedUp (users : Table Account) : (signedUp users).Minted cfg :=
  fun _ hr => absurd hr (Table.not_mem_empty _)

theorem Minted.exec (hs : s.Minted cfg) {b : o.Res} (h : exec cfg o s = .ok (b, s')) :
    s'.Minted cfg := by
  have hdrawn := exec_drawn h
  intro r hr
  cases exec_tokens h with
  | revoked now hrewrites =>
      obtain ⟨q, hq, rfl⟩ := (hrewrites r).mp hr
      obtain ⟨k, hk, hid, hhash⟩ := hs q hq
      exact ⟨k, by omega, by simp [hid], by simp [hhash]⟩
  | created hnext hextends =>
      rcases (hextends r).mp hr with hold | rfl
      · obtain ⟨k, hk, hvalues⟩ := hs r hold
        exact ⟨k, by omega, hvalues⟩
      · exact ⟨s.drawn, by omega, rfl, rfl⟩
  | deleted hdelete =>
      obtain ⟨k, hk, hvalues⟩ := hs r ((hdelete r).mp hr).1
      exact ⟨k, by omega, hvalues⟩

/-- The hash of a token belongs to one row, now or at any other time. -/
theorem Minted.id_eq {t : AuthBackend} (hs : s.Minted cfg) (ht : t.Minted cfg) {r q : RefreshToken}
    (hr : r ∈ s.tables.refreshTokens) (hq : q ∈ t.tables.refreshTokens)
    (h : r.tokenHash = q.tokenHash) : r.id = q.id := by
  obtain ⟨j, -, hrid, hrhash⟩ := hs r hr
  obtain ⟨k, -, hqid, hqhash⟩ := ht q hq
  have hdraw := cfg.hashToken_issued _ k (hrhash.symm.trans (h.trans hqhash))
  rw [hrid, hqid, cfg.randomBytes_injective hdraw]

end AuthBackend

end Reedr
