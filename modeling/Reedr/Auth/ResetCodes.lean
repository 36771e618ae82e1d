import Reedr.Auth.Services
import Reedr.Library.Alone
import Mathlib.Data.Set.Function

/-!
# Which reset codes are accepted

A user has at most one unused code: the one of the last `forgotPassword` that
reached its transaction, unless the password has been reset since. Of calls that
are served one after another, `resetPassword` succeeds with that code before it
expires, and with no other text.

## Implementation notes

A call is followed statement by statement with the codes that are outstanding at
each point; what is left at its end is what it did to them, `CodesServed`.
-/

namespace Reedr
open Relational Interleaving

/-- The code that a draw of the random source makes. -/
def AuthConfig.resetCode (cfg : AuthConfig) (k : Nat) : String :=
  toString (cfg.randomInt 100000 1000000 k)

namespace AuthBackend

/-- No user has two unused codes. -/
def SingleCode (s : AuthBackend) : Prop :=
  ∀ r ∈ s.tables.passwordResetTokens, ∀ q ∈ s.tables.passwordResetTokens,
    r.userId = q.userId → r.usedAt = none → q.usedAt = none → r = q

/-- A code with this hash is stored for the user, not used, and expires at `e`. -/
def Outstanding (s : AuthBackend) (userId : Id) (codeHash : String) (e : Millis) : Prop :=
  ∃ r ∈ s.tables.passwordResetTokens, r.userId = userId ∧ r.codeHash = codeHash ∧
    r.expiresAt = e ∧ r.usedAt = none

/-- Every code row was stored with an id of its own, one of each user unused. -/
structure CodesKept (cfg : AuthConfig) (s : AuthBackend) : Prop where
  minted : ∀ r ∈ s.tables.passwordResetTokens, ∃ k < s.drawn, r.id = cfg.uuid k
  single : s.SingleCode

theorem codesKept_signedUp (cfg : AuthConfig) (users : Table Account) :
    (signedUp users).CodesKept cfg where
  minted _ hr := absurd hr (Table.not_mem_empty _)
  single _ hr := absurd hr (Table.not_mem_empty _)

variable {cfg : AuthConfig} {s s' : AuthBackend} {o : AuthStmt} {b : o.Res}

/-- The rows of `t` that satisfy `p` are used up in `t'`; the others are as they were. -/
private theorem unused_rewritten {t t' : Table PasswordResetToken}
    {p : PasswordResetToken → Prop} [DecidablePred p] {now : Millis}
    (h : t.Rewrites (fun r => if p r then r.use now else r) t') (r : PasswordResetToken) :
    r ∈ t' ∧ r.usedAt = none ↔ r ∈ t ∧ r.usedAt = none ∧ ¬ p r := by
  constructor
  · rintro ⟨hr, hunused⟩
    obtain ⟨q, hq, heq⟩ := (h r).mp hr
    by_cases hp : p q
    · simp only [if_pos hp] at heq
      subst heq
      cases hunused
    · simp only [if_neg hp] at heq
      subst heq
      exact ⟨hq, hunused, hp⟩
  · rintro ⟨hr, hunused, hp⟩
    have hkept := h.mem hr
    simp only [if_neg hp] at hkept
    exact ⟨hkept, hunused⟩

/-- Unused afterwards are the new code and the codes of all other users. -/
theorem unused_replaced {userId : Id} {codeHash : String} {expiresAt now : Millis}
    {q : PasswordResetToken}
    (h : exec cfg (.replaceResetToken userId codeHash expiresAt now) s = .ok (q, s'))
    (r : PasswordResetToken) : r ∈ s'.tables.passwordResetTokens ∧ r.usedAt = none ↔
      (r ∈ s.tables.passwordResetTokens ∧ r.usedAt = none ∧ r.userId ≠ userId) ∨
        r = { id := cfg.uuid s.drawn, userId, codeHash, expiresAt } := by
  cases exec_codes h with
  | kept ho => exact absurd (ho userId) (by simp [AuthStmt.settles])
  | replaced used _ hused hextends =>
      have hold := unused_rewritten hused r
      constructor
      · rintro ⟨hr, hunused⟩
        rcases (hextends r).mp hr with hr | hnew
        · obtain ⟨hr, -, hne⟩ := hold.mp ⟨hr, hunused⟩
          exact Or.inl ⟨hr, hunused, fun huser => hne ⟨huser, hunused⟩⟩
        · exact Or.inr hnew
      · rintro (⟨hr, hunused, hne⟩ | rfl)
        · have hkept := hold.mpr ⟨hr, hunused, fun h => hne h.1⟩
          exact ⟨hextends.mem_old hkept.1, hunused⟩
        · exact ⟨hextends.mem_new, rfl⟩

/-- And after a reset, all codes but the one it used. -/
theorem unused_used {id userId : Id} {password : String} {now : Millis}
    (h : exec cfg (.resetBatch id userId password now) s = .ok ((), s')) (r : PasswordResetToken) :
    r ∈ s'.tables.passwordResetTokens ∧ r.usedAt = none ↔
      r ∈ s.tables.passwordResetTokens ∧ r.usedAt = none ∧ r.id ≠ id :=
  unused_rewritten (exec_resetBatch h).2.2.2.1 r

theorem SingleCode.exec (hs : s.SingleCode) (h : exec cfg o s = .ok (b, s')) : s'.SingleCode := by
  intro r hr q hq huser hr' hq'
  cases exec_codes h with
  | kept _ hsame => exact hs r (hsame ▸ hr) q (hsame ▸ hq) huser hr' hq'
  | replaced =>
      rcases (unused_replaced h r).mp ⟨hr, hr'⟩ with ⟨hr, -, hrne⟩ | rfl
      · rcases (unused_replaced h q).mp ⟨hq, hq'⟩ with ⟨hq, -, -⟩ | rfl
        · exact hs r hr q hq huser hr' hq'
        · exact absurd huser hrne
      · rcases (unused_replaced h q).mp ⟨hq, hq'⟩ with ⟨-, -, hqne⟩ | rfl
        · exact absurd huser.symm hqne
        · rfl
  | used =>
      obtain ⟨hr, -, -⟩ := (unused_used h r).mp ⟨hr, hr'⟩
      obtain ⟨hq, -, -⟩ := (unused_used h q).mp ⟨hq, hq'⟩
      exact hs r hr q hq huser hr' hq'

theorem CodesKept.exec (hs : s.CodesKept cfg) (h : exec cfg o s = .ok (b, s')) :
    s'.CodesKept cfg := by
  refine ⟨fun r hr => ?_, hs.single.exec h⟩
  have hdrawn := exec_drawn h
  have hold {q : PasswordResetToken} (hq : q ∈ s.tables.passwordResetTokens)
      (hid : r.id = q.id) : ∃ k < s'.drawn, r.id = cfg.uuid k := by
    obtain ⟨k, hk, hqid⟩ := hs.minted q hq
    exact ⟨k, Nat.lt_of_lt_of_le hk hdrawn, hid.trans hqid⟩
  cases exec_codes h with
  | kept _ hsame => exact hold (hsame ▸ hr) rfl
  | replaced used hnext hused hextends =>
      rcases (hextends r).mp hr with hr | rfl
      · obtain ⟨q, hq, rfl⟩ := (hused r).mp hr
        apply hold hq
        dsimp only
        split <;> rfl
      · exact ⟨s.drawn, by omega, rfl⟩
  | used hused =>
      obtain ⟨q, hq, rfl⟩ := (hused r).mp hr
      apply hold hq
      dsimp only
      split <;> rfl

/-- A statement that settles nothing leaves the outstanding codes. -/
theorem outstanding_kept (ho : ∀ userId, o.settles userId = false)
    (h : exec cfg o s = .ok (b, s')) (userId : Id) (codeHash : String) (e : Millis) :
    s'.Outstanding userId codeHash e ↔ s.Outstanding userId codeHash e := by
  unfold Outstanding
  cases exec_codes h with
  | kept _ hsame => rw [hsame]
  | @replaced userId => exact absurd (ho userId) (by simp [AuthStmt.settles])
  | @used _ userId => exact absurd (ho userId) (by simp [AuthStmt.settles])

/-- A new code takes the place of the outstanding one. -/
theorem outstanding_replaced {userId : Id} {codeHash : String} {expiresAt now : Millis}
    {r : PasswordResetToken}
    (h : exec cfg (.replaceResetToken userId codeHash expiresAt now) s = .ok (r, s'))
    (v : Id) (codeHash' : String) (e : Millis) : s'.Outstanding v codeHash' e ↔
      (s.Outstanding v codeHash' e ∧ v ≠ userId) ∨
        (v = userId ∧ codeHash' = codeHash ∧ e = expiresAt) := by
  constructor
  · rintro ⟨q, hq, rfl, rfl, rfl, hunused⟩
    rcases (unused_replaced h q).mp ⟨hq, hunused⟩ with ⟨hq, -, hne⟩ | rfl
    · exact Or.inl ⟨⟨q, hq, rfl, rfl, rfl, hunused⟩, hne⟩
    · exact Or.inr ⟨rfl, rfl, rfl⟩
  · rintro (⟨⟨q, hq, rfl, rfl, rfl, hunused⟩, hne⟩ | ⟨rfl, rfl, rfl⟩)
    · have hkept := (unused_replaced h q).mpr (Or.inl ⟨hq, hunused, hne⟩)
      exact ⟨q, hkept.1, rfl, rfl, rfl, hunused⟩
    · have hnew := (unused_replaced h _).mpr (Or.inr rfl)
      exact ⟨_, hnew.1, rfl, rfl, rfl, rfl⟩

/-- A reset with the row of the outstanding code uses the code up. -/
theorem outstanding_used (hs : s.SingleCode) {r : PasswordResetToken}
    (hr : r ∈ s.tables.passwordResetTokens) (hunused : r.usedAt = none) {password : String}
    {now : Millis} (h : exec cfg (.resetBatch r.id r.userId password now) s = .ok ((), s'))
    (v : Id) (codeHash : String) (e : Millis) :
    s'.Outstanding v codeHash e ↔ s.Outstanding v codeHash e ∧ v ≠ r.userId := by
  have hid {q : PasswordResetToken} (hq : q ∈ s.tables.passwordResetTokens)
      (hq' : q.usedAt = none) : q.id = r.id ↔ q.userId = r.userId := by
    constructor
    · intro hid
      rw [PasswordResetToken.eq_of_id hq hr hid]
    · intro huser
      rw [hs q hq r hr huser hq' hunused]
  constructor
  · rintro ⟨q, hq, rfl, rfl, rfl, hq'⟩
    obtain ⟨hq, -, hne⟩ := (unused_used h q).mp ⟨hq, hq'⟩
    exact ⟨⟨q, hq, rfl, rfl, rfl, hq'⟩, fun huser => hne ((hid hq hq').mpr huser)⟩
  · rintro ⟨⟨q, hq, rfl, rfl, rfl, hq'⟩, hne⟩
    have hkept := (unused_used h q).mpr ⟨hq, hq', fun heq => hne ((hid hq hq').mp heq)⟩
    exact ⟨q, hkept.1, rfl, rfl, rfl, hq'⟩

/-- The transaction of a new code always goes through. -/
theorem exec_replaceResetToken_ok (hs : s.CodesKept cfg) (userId : Id) (codeHash : String)
    (expiresAt now : Millis) : ∃ r s',
      exec cfg (.replaceResetToken userId codeHash expiresAt now) s = .ok (r, s') := by
  obtain ⟨used, hu⟩ : ∃ t, s.tables.passwordResetTokens.updateMany
      (fun q => q.userId = userId ∧ q.usedAt = none) (.use now) = .ok t :=
    ⟨_, Table.updateMany_eq_modify _ _ (PasswordResetToken.use now) fun _ => rfl⟩
  have hfresh : ∀ q ∈ used, ¬ Clash q
      ({ id := cfg.uuid s.drawn, userId, codeHash, expiresAt } : PasswordResetToken) := by
    rintro q hq ⟨key, hkey, hnew⟩
    obtain ⟨r, hr, rfl⟩ := (Table.mem_updateMany hu q).mp hq
    obtain ⟨k, hk, hid⟩ := hs.minted r hr
    have hsame : r.id = cfg.uuid s.drawn := by
      rw [List.mem_singleton.mp hnew] at hkey
      split at hkey <;> exact (List.mem_singleton.mp hkey).symm
    have hdraw := cfg.uuid_injective (hid.symm.trans hsame)
    omega
  obtain ⟨passwordResetTokens, hc⟩ := Table.create_eq_ok hfresh
  have hbatch : s.draw.tables.replaceResetToken
      { id := cfg.uuid s.drawn, userId, codeHash, expiresAt } now =
        .ok (_, { s.tables with passwordResetTokens }) :=
    bind_eq_ok.mpr ⟨used, hu, bind_eq_ok.mpr ⟨passwordResetTokens, hc, rfl⟩⟩
  refine ⟨{ id := cfg.uuid s.drawn, userId, codeHash, expiresAt },
    { s.draw with tables := { s.tables with passwordResetTokens } }, ?_⟩
  simp only [exec]
  exact onTables_of_ok hbatch

variable (cfg) in
/-- So does that of a reset of a user with a code of theirs. -/
theorem exec_resetBatch_ok {r : PasswordResetToken} (hr : r ∈ s.tables.passwordResetTokens)
    {a : Account} (ha : a ∈ s.tables.users) (password : String) (now : Millis) :
    ∃ s', exec cfg (.resetBatch r.id a.id password now) s = .ok ((), s') := by
  obtain ⟨q, passwordResetTokens, hq⟩ := Table.update_isOk (p := fun q => q.id = r.id)
    (f := PasswordResetToken.use now) hr (decide_eq_true rfl) fun _ => rfl
  obtain ⟨b, users, hb⟩ := Table.update_isOk (p := fun b => b.id = a.id)
    (f := fun b : Account => { b with password }) ha (decide_eq_true rfl) fun _ => rfl
  obtain ⟨refreshTokens, ht⟩ : ∃ t, s.tables.refreshTokens.updateMany
      (fun r => r.userId = a.id ∧ r.revokedAt = none) (.revoke now) = .ok t :=
    ⟨_, Table.updateMany_eq_modify _ _ (RefreshToken.revoke now) fun _ => rfl⟩
  have hbatch : s.tables.resetBatch r.id a.id password now =
      .ok ((), { users, refreshTokens, passwordResetTokens }) :=
    bind_eq_ok.mpr ⟨_, hq, bind_eq_ok.mpr ⟨_, hb, bind_eq_ok.mpr ⟨refreshTokens, ht, rfl⟩⟩⟩
  refine ⟨{ s with tables := { users, refreshTokens, passwordResetTokens } }, ?_⟩
  simp only [exec]
  exact onTables_of_ok hbatch

end AuthBackend

/-- The call is a `forgotPassword` that drew this code for the user and committed it, to
expire at `e`, whatever became of the message. -/
def Generates (cfg : AuthConfig) (userId : Id) (code : String) (e : Millis) (i : AuthInvocation)
    (_ : Except AuthError Unit) (l : List (AuthStmt × AuthBackend)) : Prop :=
  (∃ dto, i = .forgotPassword dto) ∧
    (∃ s, (.randomInt 100000 1000000, s) ∈ l ∧ code = cfg.resetCode s.drawn) ∧
    ∃ codeHash now s, (.replaceResetToken userId codeHash e now, s) ∈ l

/-- The call is a `resetPassword` that succeeded for the user. -/
def Resets (userId : Id) (i : AuthInvocation) (r : Except AuthError Unit)
    (l : List (AuthStmt × AuthBackend)) : Prop :=
  (∃ dto, i = .resetPassword dto) ∧ r = .ok () ∧
    ∃ id password now s, (.resetBatch id userId password now, s) ∈ l

/-- The call puts an end to the code the user had. -/
def Supersedes (cfg : AuthConfig) (userId : Id) (i : AuthInvocation) (r : Except AuthError Unit)
    (l : List (AuthStmt × AuthBackend)) : Prop :=
  (∃ code e, Generates cfg userId code e i r l) ∨ Resets userId i r l

/-- What a served call has done to the outstanding codes. -/
structure CodesServed (cfg : AuthConfig) (i : AuthInvocation) (n : Nat) (w : AuthWorld)
    (r : Except AuthError Unit) (w' : AuthWorld) : Prop where
  kept : w'.shared.CodesKept cfg
  outstanding : ∀ userId codeHash e, w'.shared.Outstanding userId codeHash e ↔
    w.shared.Outstanding userId codeHash e ∧ ¬ Supersedes cfg userId i r (memory n w'.trace) ∨
      ∃ code, codeHash = cfg.hashToken code ∧ Generates cfg userId code e i r (memory n w'.trace)

/-- Call `n` is under way since `w` and has settled nothing. -/
structure Unsettled (cfg : AuthConfig) (n : Nat) (w w' : AuthWorld) : Prop where
  kept : w'.shared.CodesKept cfg
  outstanding : ∀ userId codeHash e, w'.shared.Outstanding userId codeHash e ↔
    w.shared.Outstanding userId codeHash e
  quiet : ∀ x ∈ memory n w'.trace, ∀ userId, AuthStmt.settles userId x.1 = false

section Calls
variable {cfg : AuthConfig} {n : Nat} {i : AuthInvocation} {w w₁ : AuthWorld} {o : AuthStmt}
variable {b : o.Res} {s : AuthBackend}

theorem Unsettled.begin (hw : w.shared.CodesKept cfg) (hn : memory n w.trace = []) :
    Unsettled cfg n w w where
  kept := hw
  outstanding _ _ _ := Iff.rfl
  quiet x hx := by simp [hn] at hx

theorem Unsettled.commit (h : Unsettled cfg n w w₁) (ho : ∀ userId, o.settles userId = false)
    (hx : AuthBackend.exec cfg o w₁.shared = .ok (b, s)) :
    Unsettled cfg n w (w₁.commit n i o s) where
  kept := h.kept.exec hx
  outstanding userId codeHash e :=
    (AuthBackend.outstanding_kept ho hx userId codeHash e).trans (h.outstanding userId codeHash e)
  quiet x hmem := by
    rw [memory_commit_self, List.mem_append, List.mem_singleton] at hmem
    rcases hmem with hmem | rfl
    · exact h.quiet x hmem
    · exact ho

/-- Nothing has been settled at the end either. -/
theorem Unsettled.served (h : Unsettled cfg n w w₁) (r : Except AuthError Unit) :
    CodesServed cfg i n w r w₁ := by
  have hgenerates (userId : Id) (code : String) (e : Millis) :
      ¬ Generates cfg userId code e i r (memory n w₁.trace) := by
    rintro ⟨-, -, codeHash, now, s, hmem⟩
    exact absurd (h.quiet _ hmem userId) (by simp [AuthStmt.settles])
  have hresets (userId : Id) : ¬ Resets userId i r (memory n w₁.trace) := by
    rintro ⟨-, -, id, password, now, s, hmem⟩
    exact absurd (h.quiet _ hmem userId) (by simp [AuthStmt.settles])
  refine ⟨h.kept, fun userId codeHash e => ?_⟩
  rw [h.outstanding]
  simp [Supersedes, hgenerates, hresets]

/-- Such a call may use any statement that settles nothing. -/
theorem served_of_uses {c : AuthCall Unit}
    (hc : c.Uses fun o => ∀ userId, AuthStmt.settles userId o = false)
    (hw : w.shared.CodesKept cfg) (hn : memory n w.trace = []) :
    c.Ends (reliableDatabase cfg) n i (CodesServed cfg i n w) w := by
  have hends : c.Ends (reliableDatabase cfg) n i (fun _ w' => Unsettled cfg n w w') w := by
    apply Call.Ends.of_uses _ hc (.begin hw hn)
    exact fun _ _ _ _ ho h hx => h.commit ho hx
  apply hends.mono
  exact fun r w' h => h.served r

/-- The only code that has been drawn takes the place of the user's. -/
theorem Unsettled.replaced (h : Unsettled cfg n w w₁) (hi : ∃ dto, i = .forgotPassword dto)
    {s₀ : AuthBackend}
    (hdraw : ∀ s, (.randomInt 100000 1000000, s) ∈ memory n w₁.trace ↔ s = s₀)
    {userId : Id} {e now : Millis} {row : PasswordResetToken}
    (hx : AuthBackend.exec cfg
      (.replaceResetToken userId (cfg.hashToken (cfg.resetCode s₀.drawn)) e now) w₁.shared =
        .ok (row, s)) (r : Except AuthError Unit) :
    CodesServed cfg i n w r (w₁.commit n i
      (.replaceResetToken userId (cfg.hashToken (cfg.resetCode s₀.drawn)) e now) s) := by
  have hgenerates (v : Id) (code : String) (e' : Millis) :
      Generates cfg v code e' i r (memory n (w₁.commit n i
        (.replaceResetToken userId (cfg.hashToken (cfg.resetCode s₀.drawn)) e now) s).trace) ↔
        v = userId ∧ code = cfg.resetCode s₀.drawn ∧ e' = e := by
    unfold Generates
    rw [memory_commit_self]
    constructor
    · rintro ⟨-, ⟨s', hs', rfl⟩, codeHash, now', s₁, hs₁⟩
      rcases List.mem_append.mp hs' with hs' | hs'
      · rcases List.mem_append.mp hs₁ with hs₁ | hs₁
        · exact absurd (h.quiet _ hs₁ v) (by simp [AuthStmt.settles])
        · simp only [List.mem_singleton, Prod.mk.injEq, AuthStmt.replaceResetToken.injEq] at hs₁
          rw [(hdraw s').mp hs']
          exact ⟨hs₁.1.1, rfl, hs₁.1.2.2.1⟩
      · simp at hs'
    · rintro ⟨rfl, rfl, rfl⟩
      exact ⟨hi, ⟨s₀, List.mem_append_left _ ((hdraw s₀).mpr rfl), rfl⟩, _, now, _,
        List.mem_append_right _ (List.mem_singleton.mpr rfl)⟩
  have hresets (v : Id) (l : List (AuthStmt × AuthBackend)) : ¬ Resets v i r l := by
    obtain ⟨dto, rfl⟩ := hi
    rintro ⟨⟨dto', h⟩, -⟩
    cases h
  refine ⟨h.kept.exec hx, fun v codeHash e' => ?_⟩
  rw [World.commit_shared, AuthBackend.outstanding_replaced hx, h.outstanding]
  simp only [Supersedes, hgenerates, hresets, or_false]
  constructor
  · rintro (⟨hold, hne⟩ | ⟨rfl, rfl, rfl⟩)
    · exact Or.inl ⟨hold, fun ⟨_, _, hv, _⟩ => hne hv⟩
    · exact Or.inr ⟨_, rfl, rfl, rfl, rfl⟩
  · rintro (⟨hold, hnot⟩ | ⟨code, rfl, rfl, rfl, rfl⟩)
    · exact Or.inl ⟨hold, fun hv => hnot ⟨_, _, hv, rfl, rfl⟩⟩
    · exact Or.inr ⟨rfl, rfl, rfl⟩

/-- What is executed after that, without another draw, adds nothing. -/
theorem CodesServed.commit {r : Except AuthError Unit} (h : CodesServed cfg i n w r w₁)
    (ho : ∀ userId, o.settles userId = false) (hdraw : ∀ min max, o ≠ .randomInt min max)
    (hx : AuthBackend.exec cfg o w₁.shared = .ok (b, s)) :
    CodesServed cfg i n w r (w₁.commit n i o s) := by
  have hmem (o' : AuthStmt) (s' : AuthBackend) (hne : o' ≠ o) :
      (o', s') ∈ memory n (w₁.commit n i o s).trace ↔ (o', s') ∈ memory n w₁.trace := by
    rw [memory_commit_self]
    simp [hne]
  have hreplace (userId : Id) (codeHash : String) (e now : Millis) :
      AuthStmt.replaceResetToken userId codeHash e now ≠ o := by
    rintro rfl
    exact absurd (ho userId) (by simp [AuthStmt.settles])
  have hreset (id userId : Id) (password : String) (now : Millis) :
      AuthStmt.resetBatch id userId password now ≠ o := by
    rintro rfl
    exact absurd (ho userId) (by simp [AuthStmt.settles])
  refine ⟨h.kept.exec hx, fun userId codeHash e => ?_⟩
  rw [World.commit_shared, AuthBackend.outstanding_kept ho hx, h.outstanding]
  simp only [Supersedes, Generates, Resets, hmem _ _ (hreplace _ _ _ _),
    hmem _ _ (hreset _ _ _ _), hmem _ _ (hdraw _ _).symm]

/-- A reset with the outstanding code leaves its user without one. -/
theorem Unsettled.used (h : Unsettled cfg n w w₁) (hi : ∃ dto, i = .resetPassword dto)
    {row : PasswordResetToken} (hrow : row ∈ w₁.shared.tables.passwordResetTokens)
    (hunused : row.usedAt = none) {userId : Id} (hrowuser : row.userId = userId)
    {password : String} {now : Millis}
    (hx : AuthBackend.exec cfg (.resetBatch row.id userId password now) w₁.shared = .ok ((), s)) :
    CodesServed cfg i n w (.ok ()) (w₁.commit n i (.resetBatch row.id userId password now) s) := by
  subst hrowuser
  have hgenerates (v : Id) (code : String) (e : Millis) (l : List (AuthStmt × AuthBackend)) :
      ¬ Generates cfg v code e i (.ok ()) l := by
    obtain ⟨dto, rfl⟩ := hi
    rintro ⟨⟨dto', h⟩, -⟩
    cases h
  have hresets (v : Id) : Resets v i (.ok ()) (memory n (w₁.commit n i
      (.resetBatch row.id row.userId password now) s).trace) ↔ v = row.userId := by
    unfold Resets
    rw [memory_commit_self]
    constructor
    · rintro ⟨-, -, id, password', now', s', hs'⟩
      rcases List.mem_append.mp hs' with hs' | hs'
      · exact absurd (h.quiet _ hs' v) (by simp [AuthStmt.settles])
      · simp only [List.mem_singleton, Prod.mk.injEq, AuthStmt.resetBatch.injEq] at hs'
        exact hs'.1.2.1
    · rintro rfl
      exact ⟨hi, rfl, _, _, _, _, List.mem_append_right _ (List.mem_singleton.mpr rfl)⟩
  refine ⟨h.kept.exec hx, fun v codeHash e => ?_⟩
  rw [World.commit_shared, AuthBackend.outstanding_used h.kept.single hrow hunused hx,
    h.outstanding]
  simp only [Supersedes, hgenerates, hresets, exists_false, false_or, and_false, or_false, ne_eq]

/-- What `resetPassword` changes for its user: the password, the code and the open
sessions. -/
structure ResetOnly (cfg : AuthConfig) (dto : ResetPasswordDto) (userId : Id)
    (s s' : AuthBackend) : Prop where
  users : s.tables.users.Rewrites
    (fun a => if a.id = userId then
      { a with password := cfg.bcryptHash dto.newPassword bcryptRounds s.drawn } else a)
    s'.tables.users
  passwordResetTokens : s.tables.passwordResetTokens.Rewrites
    (fun r => if r.userId = userId ∧ r.codeHash = cfg.hashToken dto.code ∧ r.usedAt = none then
      r.use s.clock else r) s'.tables.passwordResetTokens
  refreshTokens : s.tables.refreshTokens.Rewrites
    (fun r => if r.userId = userId ∧ r.revokedAt = none then r.revoke s.clock else r)
    s'.tables.refreshTokens
  rest : s' = { s.draw with tables := s'.tables }

/-- With the outstanding code of a registered number, and only with it, `resetPassword`
succeeds; otherwise it changes nothing. -/
structure ResetOutcome (cfg : AuthConfig) (dto : ResetPasswordDto) (s : AuthBackend)
    (r : Except AuthError Unit) (s' : AuthBackend) : Prop where
  ok_iff : r = .ok () ↔ ∃ a ∈ s.tables.users, a.phone = dto.phone ∧
    ∃ e, s.Outstanding a.id (cfg.hashToken dto.code) e ∧ s.clock < e
  ok : r = .ok () → ∃ a ∈ s.tables.users, a.phone = dto.phone ∧ ResetOnly cfg dto a.id s s'
  error : ∀ e, r = .error e → s' = s

theorem ResetOutcome.rejected {dto : ResetPasswordDto} {s : AuthBackend} (e : AuthError)
    (h : ∀ a ∈ s.tables.users, a.phone = dto.phone → ∀ e,
      s.Outstanding a.id (cfg.hashToken dto.code) e → e ≤ s.clock) :
    ResetOutcome cfg dto s (.error e) s where
  ok_iff := by
    constructor
    · nofun
    · rintro ⟨a, ha, hphone, e, hcode, hlater⟩
      exact absurd hlater (Nat.not_lt.mpr (h a ha hphone e hcode))
  ok := nofun
  error _ _ := rfl

variable (hw : w.shared.CodesKept cfg) (hn : memory n w.trace = [])
include hw hn

theorem forgotPassword_codesServed (dto : ForgotPasswordDto) :
    ((AuthInvocation.forgotPassword dto).code cfg).Ends (reliableDatabase cfg) n
      (.forgotPassword dto) (CodesServed cfg (.forgotPassword dto) n w) w := by
  have h := (Unsettled.begin hw hn).commit (i := .forgotPassword dto)
    (o := .findUserByPhone dto.phone) (fun _ => rfl) rfl
  apply Call.Ends.step rfl rfl
  cases w.shared.tables.findUserByPhone dto.phone with
  | none => exact h.served _
  | some user =>
      have h := h.commit (i := .forgotPassword dto) (o := .randomInt 100000 1000000)
        (fun _ => rfl) rfl
      apply Call.Ends.step rfl rfl
      have h := h.commit (i := .forgotPassword dto) (o := .now) (fun _ => rfl) rfl
      apply Call.Ends.step rfl rfl
      obtain ⟨row, s, hx⟩ := AuthBackend.exec_replaceResetToken_ok h.kept user.id
        (cfg.hashToken (cfg.resetCode w.shared.drawn))
        (w.shared.clock + cfg.ms cfg.passwordResetCodeExpiresIn) w.shared.clock
      apply Call.Ends.step rfl hx
      have hserved (r : Except AuthError Unit) := by
        apply h.replaced (i := .forgotPassword dto) ⟨dto, rfl⟩ _ hx r
        rw [memory_commit_self, memory_commit_self, memory_commit_self, hn]
        simp
      apply Call.Ends.perform
      · exact fun _ => hserved _
      · intro b s' hx'
        exact (hserved _).commit (fun _ => rfl) nofun hx'
      · exact fun _ _ => hserved _

theorem resetPassword_codesServed (dto : ResetPasswordDto) :
    ((AuthInvocation.resetPassword dto).code cfg).Ends (reliableDatabase cfg) n
      (.resetPassword dto) (fun r w' => CodesServed cfg (.resetPassword dto) n w r w' ∧
        ResetOutcome cfg dto w.shared r w'.shared) w := by
  have h := (Unsettled.begin hw hn).commit (i := .resetPassword dto)
    (o := .findUserByPhone dto.phone) (fun _ => rfl) rfl
  apply Call.Ends.step rfl rfl
  apply Call.Ends.required_bind
  case hnone =>
    intro hnone
    refine ⟨h.served _, .rejected _ fun a ha hphone => ?_⟩
    exact absurd hphone (AuthTables.findUserByPhone_none hnone a ha)
  intro user hfind
  obtain ⟨huser, hphone⟩ := AuthTables.findUserByPhone_some hfind
  have h := h.commit (i := .resetPassword dto) (o := .now) (fun _ => rfl) rfl
  apply Call.Ends.step rfl rfl
  have h := h.commit (i := .resetPassword dto)
    (o := .findResetToken user.id (cfg.hashToken dto.code) w.shared.clock) (fun _ => rfl) rfl
  apply Call.Ends.step rfl rfl
  apply Call.Ends.required_bind
  case hnone =>
    intro hnone
    refine ⟨h.served _, .rejected _ fun a ha haphone e hcode => ?_⟩
    obtain ⟨r, hr, hruser, hhash, rfl, hunused⟩ := hcode
    rw [Account.eq_of_phone ha huser (haphone.trans hphone.symm)] at hruser
    apply Nat.not_lt.mp
    intro hlater
    exact AuthTables.findResetToken_none hnone r hr ⟨hruser, hhash, hunused, hlater⟩
  intro stored hfind
  obtain ⟨hstored, hsuser, hhash, hunused, hlater⟩ := AuthTables.findResetToken_some hfind
  have h := h.commit (i := .resetPassword dto)
    (o := .bcryptHash dto.newPassword bcryptRounds) (fun _ => rfl) rfl
  apply Call.Ends.step rfl rfl
  have h := h.commit (i := .resetPassword dto) (o := .now) (fun _ => rfl) rfl
  apply Call.Ends.step rfl rfl
  obtain ⟨s, hx⟩ := AuthBackend.exec_resetBatch_ok cfg (s := w.shared.draw) hstored huser
    (cfg.bcryptHash dto.newPassword bcryptRounds w.shared.drawn) w.shared.clock
  apply Call.Ends.perform
  case hout => nofun
  case herr => exact fun e hx' => nomatch hx.symm.trans hx'
  intro b s' hx'
  cases hx.symm.trans hx'
  refine ⟨h.used ⟨dto, rfl⟩ hstored hunused hsuser hx, ?_, ?_, nofun⟩
  · exact iff_of_true rfl ⟨user, huser, hphone, stored.expiresAt,
      ⟨stored, hstored, hsuser, hhash, rfl, hunused⟩, hlater⟩
  · intro _
    obtain ⟨-, husers, htokens, hcodes, hrest⟩ := AuthBackend.exec_resetBatch hx
    refine ⟨user, huser, hphone, husers, hcodes.congr_of_mem fun r hr => ?_, htokens, hrest⟩
    have hrow : r.id = stored.id ↔
        r.userId = user.id ∧ r.codeHash = cfg.hashToken dto.code ∧ r.usedAt = none := by
      constructor
      · intro hid
        rw [PasswordResetToken.eq_of_id hr hstored hid]
        exact ⟨hsuser, hhash, hunused⟩
      · rintro ⟨hruser, -, hrunused⟩
        rw [hw.single r hr stored hstored (hruser.trans hsuser.symm) hrunused hunused]
    simp only [hrow]

theorem code_codesServed (i : AuthInvocation) :
    (i.code cfg).Ends (reliableDatabase cfg) n i (CodesServed cfg i n w) w := by
  have hissues : IssuesWith fun o => ∀ userId, AuthStmt.settles userId o = false :=
    ⟨fun _ _ => rfl, fun _ _ _ => rfl, fun _ => rfl, fun _ _ _ => rfl, fun _ _ => rfl⟩
  cases i with
  | register dto =>
      apply served_of_uses (answer_uses hissues _) hw hn
      exact register_uses hissues (fun _ _ _ => rfl) (fun _ _ _ _ => rfl) dto
  | login dto =>
      apply served_of_uses (answer_uses hissues _) hw hn
      exact login_uses hissues (fun _ _ _ => rfl) dto
  | refresh x =>
      apply served_of_uses (answer_uses hissues _) hw hn
      exact refresh_uses hissues (fun _ _ => rfl) (fun _ _ _ => rfl) (fun _ _ => rfl) x
  | forgotPassword dto => exact forgotPassword_codesServed hw hn dto
  | resetPassword dto => exact (resetPassword_codesServed hw hn dto).mono fun _ _ h => h.1
  | logout x =>
      apply served_of_uses _ hw hn
      exact logout_uses (fun _ => rfl) (fun _ _ _ => rfl) x
  | removeExpiredRefreshTokens =>
      apply served_of_uses _ hw hn
      exact .bind (.perform fun _ => rfl) fun _ => .bind (.perform fun _ => rfl) fun _ => trivial
  | elapse duration => exact served_of_uses (.perform fun _ => rfl) hw hn

end Calls

/-- After whole calls, the rows say what the history says. -/
structure CodesRecorded (cfg : AuthConfig) (p : AuthPool) : Prop where
  kept : p.world.shared.CodesKept cfg
  trace : ∀ c ∈ p.world.trace, c.call < p.running.length
  outstanding : ∀ userId codeHash e, p.world.shared.Outstanding userId codeHash e ↔
    ∃ code, codeHash = cfg.hashToken code ∧ ∃ j, p.ServedAs (Generates cfg userId code e) j ∧
      ∀ k, j < k → ¬ p.ServedAs (Supersedes cfg userId) k

section CodesRecorded
variable {cfg : AuthConfig} {p : AuthPool}

theorem codesRecorded_init (cfg : AuthConfig) (users : Table Account) :
    CodesRecorded cfg (authPool users) where
  kept := AuthBackend.codesKept_signedUp cfg users
  trace c hc := absurd hc List.not_mem_nil
  outstanding userId codeHash e := by
    constructor
    · rintro ⟨r, hr, -⟩
      exact absurd hr (Table.not_mem_empty _)
    · rintro ⟨code, -, j, hj, -⟩
      exact absurd hj.lt (Nat.not_lt_zero j)

/-- What a served call does to the codes is what it adds to the history. -/
theorem CodesRecorded.serve (h : CodesRecorded cfg p) (q : AuthInvocation × List Bool) :
    CodesRecorded cfg (p.serve (reliableDatabase cfg) q) := by
  have hserved := (code_codesServed h.kept (memory_eq_nil h.trace) q.1).eval q.2
  refine ⟨hserved.kept, Pool.serve_trace h.trace q, fun userId codeHash e => ?_⟩
  refine (hserved.outstanding userId codeHash e).trans ?_
  simp only [Pool.exists_since_serve, Pool.servedAs_serve_self, h.outstanding]
  constructor
  · rintro (⟨⟨code, rfl, hsince⟩, hnot⟩ | ⟨code, rfl, hnow⟩)
    · exact ⟨code, rfl, Or.inl ⟨hsince, hnot⟩⟩
    · exact ⟨code, rfl, Or.inr hnow⟩
  · rintro ⟨code, rfl, ⟨hsince, hnot⟩ | hnow⟩
    · exact Or.inl ⟨⟨code, rfl, hsince⟩, hnot⟩
    · exact Or.inr ⟨code, rfl, hnow⟩

theorem exists_resetCode {userId : Id} {code : String} {e : Millis} {j : Nat}
    (h : p.ServedAs (Generates cfg userId code e) j) : ∃ k, code = cfg.resetCode k := by
  obtain ⟨i, r, -, -, ⟨s, -, hcode⟩, -⟩ := h
  exact ⟨s.drawn, hcode⟩

theorem always_singleCode (cfg : AuthConfig) (users : Table Account)
    (qs : List (AuthInvocation × List Bool)) :
    ((authPool users).serveAll (reliableDatabase cfg) qs).world.Always
      fun w => w.shared.SingleCode := by
  let K : AuthWorld → Prop := fun w => w.Always fun w => w.shared.SingleCode
  apply Pool.serveAll_invariant (K := K)
  · intro w n i hw
    apply Call.Ends.of_uses _ (Call.Uses.any _) hw
    intro w' o b s _ hw' hx
    exact World.always_commit.mpr ⟨hw', hw'.now.exec hx⟩
  · exact World.always_init (AuthBackend.codesKept_signedUp cfg users).single

/-- When no two of the texts that can be codes have the same hash, in every run of whole
calls each user has at most one unused code at any moment, and `resetPassword` succeeds
if and only if the number is registered, the last code that was committed for its user
is the one presented, no reset of that user has succeeded since, and the code has not
expired. What it changes is the password, the code and the open sessions of that user
when it succeeds, and nothing when it fails. -/
theorem resetPassword_accepts_iff (cfg : AuthConfig) (codes : Set String)
    (hcodes : ∀ k, cfg.resetCode k ∈ codes) (hhash : Set.InjOn cfg.hashToken codes)
    (users : Table Account) (qs : List (AuthInvocation × List Bool)) :
    let sys := reliableDatabase cfg
    let p := (authPool users).serveAll sys qs
    (p.world.Always fun w => w.shared.SingleCode) ∧ ∀ dto refusals, dto.code ∈ codes →
      let r := p.reply sys (.resetPassword dto, refusals)
      let s := p.world.shared
      let s' := (p.serve sys (.resetPassword dto, refusals)).world.shared
      (r = .ok () ↔ ∃ a ∈ s.tables.users, a.phone = dto.phone ∧ ∃ j e,
        p.ServedAs (Generates cfg a.id dto.code e) j ∧
          (∀ k, j < k → ¬ p.ServedAs (Supersedes cfg a.id) k) ∧ s.clock < e) ∧
        (r = .ok () → ∃ a ∈ s.tables.users, a.phone = dto.phone ∧ ResetOnly cfg dto a.id s s') ∧
        ∀ e, r = .error e → s' = s := by
  intro sys p
  have hp : CodesRecorded cfg p := by
    apply Pool.serveAll_keeps (G := CodesRecorded cfg) _ (codesRecorded_init cfg users)
    exact fun _ q h => h.serve q
  constructor
  · exact always_singleCode cfg users qs
  · intro dto refusals hdto r s s'
    obtain ⟨hiff, hok, herror⟩ :=
      ((resetPassword_codesServed hp.kept (memory_eq_nil hp.trace) dto).eval refusals).2
    refine ⟨hiff.trans ?_, hok, herror⟩
    -- The hash that is outstanding is that of the code presented.
    have hcode (userId : Id) (e : Millis) :
        p.world.shared.Outstanding userId (cfg.hashToken dto.code) e ↔
          ∃ j, p.ServedAs (Generates cfg userId dto.code e) j ∧
            ∀ k, j < k → ¬ p.ServedAs (Supersedes cfg userId) k := by
      rw [hp.outstanding]
      constructor
      · rintro ⟨code, hsame, j, hj, hsince⟩
        obtain ⟨k, hk⟩ := exists_resetCode hj
        obtain rfl : dto.code = code := hhash hdto (hk ▸ hcodes k) hsame
        exact ⟨j, hj, hsince⟩
      · rintro ⟨j, hj, hsince⟩
        exact ⟨dto.code, rfl, j, hj, hsince⟩
    simp only [hcode]
    constructor
    · rintro ⟨a, ha, hphone, e, ⟨j, hj, hsince⟩, hlater⟩
      exact ⟨a, ha, hphone, j, e, hj, hsince, hlater⟩
    · rintro ⟨a, ha, hphone, j, e, hj, hsince, hlater⟩
      exact ⟨a, ha, hphone, e, ⟨j, hj, hsince⟩, hlater⟩

/-- The second message is lost, and its code is the one that counts. -/
theorem resetPassword_accepts_lostMessage :
    let sys := reliableDatabase .default
    let p := (authPool oneUser).serveAll sys
      [(.forgotPassword { phone := "+2348012345678" }, []), (.elapse 600000, []),
        (.forgotPassword { phone := "+2348012345678" }, [false, false, false, false, true]),
        (.elapse 600000, [])]
    ∃ a ∈ p.world.shared.tables.users, a.phone = "+2348012345678" ∧ ∃ j e,
      p.ServedAs (Generates .default a.id "100000" e) j ∧
        (∀ k, j < k → ¬ p.ServedAs (Supersedes .default a.id) k) ∧ p.world.shared.clock < e := by
  intro sys p
  have h := (resetPassword_accepts_iff .default Set.univ (fun _ => trivial)
    (fun _ _ _ _ h => h) oneUser
      [(.forgotPassword { phone := "+2348012345678" }, []), (.elapse 600000, []),
        (.forgotPassword { phone := "+2348012345678" }, [false, false, false, false, true]),
        (.elapse 600000, [])]).2
    { phone := "+2348012345678", code := "100000", newPassword := "password456" } [] trivial
  exact h.1.mp (by decide +kernel)

end CodesRecorded

end Reedr
