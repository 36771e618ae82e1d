import Reedr.Auth.Memory
import Reedr.Library.History

/-!
# Every refresh token is exchanged once

A refresh reads the token row, revokes it some statements later without another
look, and then issues the new pair. A row once revoked stays so, and so does its
token; two refreshes exchange one token only when the second has read the row
before the first revokes it.
-/

namespace Reedr
open Relational Interleaving

/-- Call `n` is a refresh of token `x` that has returned its pair. -/
def Exchanges (p : AuthPool) (x : String) (n : Nat) : Prop :=
  p.running[n]? = some (.refresh x, .done ())

/-- Of all refreshes of a token, at most one returns a pair. -/
def ExchangedOnce (p : AuthPool) : Prop :=
  ∀ x n m, Exchanges p x n → Exchanges p x m → n = m

/-- Statements by which a refresh uses up the token row. -/
def AuthStmt.rotates (id : Id) : AuthStmt → Bool
  | revokeRefreshToken rowId _ => rowId = id
  | _ => false

/-- No refresh has used up the row since this one read it. -/
def RotatesUnused (w : AuthWorld) (n : Nat) : AuthStmt → Prop
  | .revokeRefreshToken id _ =>
      ∀ c ∈ w.since fun c => c.call = n ∧ AuthStmt.vouches c.op, AuthStmt.rotates id c.op = false
  | _ => True

/-- So it is whenever a refresh of the run uses up a row. -/
def RotationsDisjoint (cfg : AuthConfig) : AuthPool → List AuthMove → Prop :=
  Along (authSystem cfg) fun p m =>
    ∀ n i o b s, p.Commits (authSystem cfg) m n i o b s → RotatesUnused p.world n o

section Decidable

instance (p : AuthPool) (x : String) (n : Nat) : Decidable (Exchanges p x n) :=
  match h : p.running[n]? with
  | some (.refresh y, .done ()) =>
      if hxy : y = x then isTrue (by rw [Exchanges, h, hxy])
      else isFalse fun hx => hxy (by cases h.symm.trans hx; rfl)
  | some (.refresh _, .fail _) => isFalse fun hx => nomatch h.symm.trans hx
  | some (.refresh _, .step _ _) => isFalse fun hx => nomatch h.symm.trans hx
  | some (.register _, _) => isFalse fun hx => nomatch h.symm.trans hx
  | some (.login _, _) => isFalse fun hx => nomatch h.symm.trans hx
  | some (.forgotPassword _, _) => isFalse fun hx => nomatch h.symm.trans hx
  | some (.resetPassword _, _) => isFalse fun hx => nomatch h.symm.trans hx
  | some (.logout _, _) => isFalse fun hx => nomatch h.symm.trans hx
  | some (.removeExpiredRefreshTokens, _) => isFalse fun hx => nomatch h.symm.trans hx
  | some (.elapse _, _) => isFalse fun hx => nomatch h.symm.trans hx
  | none => isFalse fun hx => nomatch h.symm.trans hx

instance (w : AuthWorld) (n : Nat) (o : AuthStmt) : Decidable (RotatesUnused w n o) :=
  match o with
  | .revokeRefreshToken _ _ => inferInstanceAs (Decidable (∀ c ∈ _, _))
  | .findUserByPhone _ | .findUser _ | .createUser _ _ _ | .findRefreshToken _
  | .revokeByTokenHash _ _ | .createRefreshToken _ _ | .deleteExpired _
  | .replaceResetToken _ _ _ _ | .findResetToken _ _ _ | .resetBatch _ _ _ _
  | .bcryptHash _ _ | .bcryptCompare _ _ | .signAsync _ _ | .randomInt _ _
  | .sendSms _ _ | .respond _ | .now | .elapse _ => inferInstanceAs (Decidable True)

instance (cfg : AuthConfig) (p : AuthPool) (ms : List AuthMove) :
    Decidable (RotationsDisjoint cfg p ms) :=
  inferInstanceAs (Decidable (Along _ _ _ _))

end Decidable

/-- A row that was used up is not open, and neither is another of its id. -/
def RotationsStand (cfg : AuthConfig) (w : AuthWorld) : Prop :=
  ∀ c ∈ w.trace, ∀ id, AuthStmt.rotates id c.op = true →
    (∃ k < w.shared.drawn, id = cfg.uuid k) ∧
      ∀ r ∈ w.shared.tables.refreshTokens, r.id = id → r.revokedAt ≠ none

/-- No two calls have used up the same row. -/
def RotatedOnce (w : AuthWorld) : Prop :=
  ∀ c ∈ w.trace, ∀ d ∈ w.trace, ∀ id, AuthStmt.rotates id c.op = true →
    AuthStmt.rotates id d.op = true → c.call = d.call

structure Rotating (cfg : AuthConfig) (w : AuthWorld) : Prop where
  minted : w.shared.Minted cfg
  stand : RotationsStand cfg w
  once : RotatedOnce w

section Statements
variable {cfg : AuthConfig} {w : AuthWorld} {n : Nat} {i : AuthInvocation} {o : AuthStmt}
variable {b : o.Res} {s : AuthBackend}

/-- No statement reopens a row, and a new row has an id of its own. -/
private theorem closed_exec {id : Id} {t : AuthBackend}
    (hid : ∃ k < t.drawn, id = cfg.uuid k)
    (hclosed : ∀ r ∈ t.tables.refreshTokens, r.id = id → r.revokedAt ≠ none)
    (h : AuthBackend.exec cfg o t = .ok (b, s)) :
    ∀ r ∈ s.tables.refreshTokens, r.id = id → r.revokedAt ≠ none := by
  intro r hr hrid
  cases AuthBackend.exec_tokens h with
  | revoked now hrewrites =>
      obtain ⟨q, hq, rfl⟩ := (hrewrites r).mp hr
      intro hopen
      rw [AuthStmt.onRefreshToken_id] at hrid
      exact hclosed q hq hrid (AuthStmt.onRefreshToken_open _ _ _ |>.mp hopen).1
  | created hnext hextends =>
      rcases (hextends r).mp hr with hold | rfl
      · exact hclosed r hold hrid
      · obtain ⟨k, hk, rfl⟩ := hid
        have hdraw : t.drawn = k := cfg.uuid_injective hrid
        omega
  | deleted hdelete => exact hclosed r ((hdelete r).mp hr).1 hrid

private theorem rotationsStand_commit (hw : Rotating cfg w)
    (h : AuthBackend.exec cfg o w.shared = .ok (b, s)) : RotationsStand cfg (w.commit n i o s) := by
  have hdrawn := AuthBackend.exec_drawn h
  intro c hc id hrot
  rw [World.commit_trace, List.mem_append, List.mem_singleton] at hc
  rcases hc with hc | rfl
  · obtain ⟨⟨k, hk, hid⟩, hclosed⟩ := hw.stand c hc id hrot
    constructor
    · exact ⟨k, by simp only [World.commit_shared]; omega, hid⟩
    · exact closed_exec ⟨k, hk, hid⟩ hclosed h
  · -- The statement itself has found a row of that id and revoked it.
    cases o with
    | revokeRefreshToken rowId now =>
        obtain rfl : rowId = id := of_decide_eq_true hrot
        obtain ⟨refreshTokens, ⟨q, hq, hqid⟩, hu, rfl⟩ := AuthBackend.exec_revokeRefreshToken h
        obtain ⟨k, hk, hid, -⟩ := hw.minted q hq
        constructor
        · exact ⟨k, hk, hqid.symm.trans hid⟩
        · intro r hr hrid
          obtain ⟨x, hx, rfl⟩ := (Table.Rewrites.of_updateMany hu r).mp hr
          by_cases hxid : x.id = rowId
          · simp [hxid, RefreshToken.revoke]
          · simp only [hxid, decide_false, Bool.false_eq_true, if_false] at hrid
    | _ => cases hrot

/-- What the call has read was open then, so nobody had used it up before. -/
private theorem unused_of_read {k : Except AuthError o.Res → AuthCall Unit}
    (hw : w.Always (Rotating cfg)) (hknows : KnowsSession cfg i (memory n w.trace) (.step o k))
    (hunused : RotatesUnused w n o) {id : Id} (hrot : o.rotates id = true) :
    ∀ d ∈ w.trace, AuthStmt.rotates id d.op = false := by
  cases o with
  | revokeRefreshToken rowId now =>
      obtain rfl : rowId = id := of_decide_eq_true hrot
      obtain ⟨x, s, r, -, hlatest, hfind, hopen, hid⟩ := hknows.1
      obtain ⟨before, c, hsplit, -, hread⟩ := World.exists_since_latest (w := w) hlatest
      obtain ⟨hop, rfl⟩ := Prod.mk.inj hread
      have hthen : Rotating cfg ⟨c.before, before⟩ := hw.before hsplit
      have hr := (AuthTables.findRefreshToken_eq_some.mp hfind).1
      intro d hd
      rw [hsplit, List.mem_append, List.mem_cons] at hd
      rcases hd with hd | rfl | hd
      · by_contra hused
        rw [Bool.not_eq_false] at hused
        exact (hthen.stand d hd rowId hused).2 r hr hid hopen
      · rw [hop]
        rfl
      · exact hunused d hd
  | _ => exact nomatch hrot

theorem Rotating.commit {k : Except AuthError o.Res → AuthCall Unit}
    (hw : w.Always (Rotating cfg)) (hknows : KnowsSession cfg i (memory n w.trace) (.step o k))
    (hunused : RotatesUnused w n o) (h : AuthBackend.exec cfg o w.shared = .ok (b, s)) :
    Rotating cfg (w.commit n i o s) := by
  constructor
  · exact hw.now.minted.exec h
  · exact rotationsStand_commit hw.now h
  · intro c hc d hd id hcrot hdrot
    rw [World.commit_trace, List.mem_append, List.mem_singleton] at hc hd
    rcases hc with hc | rfl <;> rcases hd with hd | rfl
    · exact hw.now.once c hc d hd id hcrot hdrot
    · exact nomatch (unused_of_read hw hknows hunused hdrot c hc).symm.trans hcrot
    · exact nomatch (unused_of_read hw hknows hunused hcrot d hd).symm.trans hdrot
    · rfl

end Statements

/-- However refreshes, logouts, resets and all the other calls overlap, every
token is exchanged at most once, provided that no refresh uses up a row that
another has used up since it read it. -/
theorem exchanged_once (cfg : AuthConfig) (users : Table Account) (ms : List AuthMove)
    (h : RotationsDisjoint cfg (authPool users) ms) :
    ExchangedOnce ((authPool users).run (authSystem cfg) ms) := by
  have hinit : (authPool users).world.Always (Rotating cfg) := by
    apply World.always_init
    constructor
    · exact AuthBackend.minted_signedUp users
    · exact fun c hc => absurd hc List.not_mem_nil
    · exact fun c hc => absurd hc List.not_mem_nil
  have hknown := sessionsKnown_init cfg users
  have hrotating := (sessions_known cfg).always_run Rotating.commit hknown hinit ms h
  have hend := (sessions_known cfg).holds_run hknown ms
  intro x n m hn hm
  obtain ⟨s, r, s', now, hread, hfind, hrevoke⟩ := hend.thread hn x rfl
  obtain ⟨t, q, t', now', hread', hfind', hrevoke'⟩ := hend.thread hm x rfl
  obtain ⟨hr, hrhash⟩ := AuthTables.findRefreshToken_eq_some.mp hfind
  obtain ⟨hq, hqhash⟩ := AuthTables.findRefreshToken_eq_some.mp hfind'
  obtain ⟨_, hs⟩ := hrotating.of_memory hread
  obtain ⟨_, ht⟩ := hrotating.of_memory hread'
  have hid : r.id = q.id := hs.minted.id_eq ht.minted hr hq (hrhash.trans hqhash.symm)
  obtain ⟨c, hc, hcn, hcx⟩ := mem_memory.mp hrevoke
  obtain ⟨d, hd, hdm, hdx⟩ := mem_memory.mp hrevoke'
  have hcrot : AuthStmt.rotates q.id c.op = true := by
    rw [(Prod.mk.inj hcx).1]
    exact decide_eq_true hid
  have hdrot : AuthStmt.rotates q.id d.op = true := by
    rw [(Prod.mk.inj hdx).1]
    exact decide_eq_true rfl
  calc
    n = c.call := hcn.symm
    _ = d.call := hrotating.now.once c hc d hd q.id hcrot hdrot
    _ = m := hdm

/-- A user logs in, and two refreshes of the token read its row before either
revokes it. -/
def twoRefreshes : List AuthMove :=
  loginMoves 0 ++ [.invoke (.refresh "x"), .invoke (.refresh "x"), .advance 1, .advance 2] ++
    List.replicate 8 (.advance 1) ++ List.replicate 8 (.advance 2)

/-- Each of them returns a pair of its own. -/
theorem not_exchangedOnce_twoRefreshes :
    ¬ ExchangedOnce ((authPool oneUser).run (authSystem .default) twoRefreshes) := by
  intro h
  have hfirst : Exchanges ((authPool oneUser).run (authSystem .default) twoRefreshes) "x" 1 := by
    decide +kernel
  have hsecond : Exchanges ((authPool oneUser).run (authSystem .default) twoRefreshes) "x" 2 := by
    decide +kernel
  exact absurd (h "x" 1 2 hfirst hsecond) (by decide)

/-- A logout comes between the read and the revocation of one refresh, and another
refresh reads the row when the first is over. -/
theorem exchanged_once_inTurn :
    ExchangedOnce ((authPool oneUser).run (authSystem .default)
      (loginMoves 0 ++ [.invoke (.refresh "x"), .advance 1, .invoke (.logout "x"), .advance 2,
        .advance 2] ++ List.replicate 8 (.advance 1) ++ [.invoke (.refresh "x"), .advance 3])) := by
  apply exchanged_once
  decide +kernel

end Reedr
