import Reedr.Auth.Cleanup

/-!
# A token is accepted while its session lasts

The rows of the table against the history of the calls: in every run of whole
calls, the tokens that `refresh` accepts are those of the sessions that have been
issued, have not expired, and have not been ended since.
-/

namespace Reedr
open Relational Interleaving

/-- Call `j` answered with the refresh token `x`, issued to the user until `e`. -/
def IssuedBy (cfg : AuthConfig) (p : AuthPool) (j : Nat) (x : String) (userId : Id)
    (e : Millis) : Prop :=
  AnswersWith cfg (memory j p.world.trace) x userId e

/-- Call `k` has ended the session of `x`: a refresh of it or a reset of its user
that succeeded, or a logout. -/
def EndedBy (p : AuthPool) (k : Nat) (x : String) (userId : Id) : Prop :=
  ∃ i r, p.running[k]? = some (i, .ofExcept r) ∧
    EndsSession i r (executed k p.world.trace) x userId

/-- Call `j` began a session of `x` that no call has ended since. -/
def OpenSince (cfg : AuthConfig) (p : AuthPool) (j : Nat) (x : String) (userId : Id)
    (e : Millis) : Prop :=
  IssuedBy cfg p j x userId e ∧ ∀ k, j < k → ¬ EndedBy p k x userId

/-- After whole calls, the rows say what the history says. -/
structure SessionsRecorded (cfg : AuthConfig) (p : AuthPool) : Prop where
  consistent : p.world.shared.Consistent cfg
  trace : ∀ c ∈ p.world.trace, c.call < p.running.length
  valid : ∀ x userId e, p.world.shared.Valid cfg x userId e ↔
    p.world.shared.clock ≤ e ∧ ∃ j, OpenSince cfg p j x userId e

section SessionsRecorded
variable {cfg : AuthConfig} {p : AuthPool}

theorem sessionsRecorded_init (cfg : AuthConfig) (users : Table Account) :
    SessionsRecorded cfg (authPool users) where
  consistent := ⟨AuthBackend.minted_signedUp users, fun _ hr => absurd hr (Table.not_mem_empty _)⟩
  trace c hc := absurd hc List.not_mem_nil
  valid x userId e := by
    constructor
    · rintro ⟨-, r, hr, -⟩
      exact absurd hr (Table.not_mem_empty _)
    · rintro ⟨-, j, ⟨role, s, -, h, -⟩, -⟩
      exact absurd h List.not_mem_nil

theorem IssuedBy.lt {j : Nat} {x : String} {userId : Id} {e : Millis}
    (htrace : ∀ c ∈ p.world.trace, c.call < p.running.length) (h : IssuedBy cfg p j x userId e) :
    j < p.running.length := by
  obtain ⟨role, s, -, hrespond, -⟩ := h
  obtain ⟨c, hc, rfl, -⟩ := mem_memory.mp hrespond
  exact htrace c hc

theorem EndedBy.lt {k : Nat} {x : String} {userId : Id} (h : EndedBy p k x userId) :
    k < p.running.length := by
  obtain ⟨i, r, hk, -⟩ := h
  exact (List.getElem?_eq_some_iff.mp hk).1

section Serve
variable (q : AuthInvocation × List Bool)

/-- Of the calls served before, nothing more can be said afterwards. -/
theorem issuedBy_serve_of_ne {j : Nat} (hj : j ≠ p.running.length) (x : String) (userId : Id)
    (e : Millis) :
    IssuedBy cfg (p.serve (reliableDatabase cfg) q) j x userId e ↔ IssuedBy cfg p j x userId e := by
  unfold IssuedBy
  rw [show memory j (p.serve (reliableDatabase cfg) q).world.trace = memory j p.world.trace from
    Call.eval_memory_ne _ hj q.2 _ p.world]

theorem endedBy_serve_of_ne {k : Nat} (hk : k ≠ p.running.length) (x : String) (userId : Id) :
    EndedBy (p.serve (reliableDatabase cfg) q) k x userId ↔ EndedBy p k x userId := by
  have htrace : executed k (p.serve (reliableDatabase cfg) q).world.trace =
      executed k p.world.trace := Call.eval_executed_ne _ hk q.2 _ p.world
  unfold EndedBy
  rw [htrace, Pool.serve_running_of_ne hk]

theorem endedBy_serve_self (x : String) (userId : Id) :
    EndedBy (p.serve (reliableDatabase cfg) q) p.running.length x userId ↔
      EndsSession q.1 (p.reply (reliableDatabase cfg) q)
        (executed p.running.length (p.serve (reliableDatabase cfg) q).world.trace) x userId := by
  unfold EndedBy
  rw [Pool.serve_running_self]
  constructor
  · rintro ⟨i, r, hcall, h⟩
    obtain ⟨rfl, hr⟩ := Prod.mk.inj (Option.some.inj hcall)
    exact Call.ofExcept_injective hr ▸ h
  · intro h
    exact ⟨_, _, rfl, h⟩

/-- A session is open if it was and has not been ended now, or begins now. -/
theorem exists_openSince_serve (htrace : ∀ c ∈ p.world.trace, c.call < p.running.length)
    (x : String) (userId : Id) (e : Millis) :
    (∃ j, OpenSince cfg (p.serve (reliableDatabase cfg) q) j x userId e) ↔
      (∃ j, OpenSince cfg p j x userId e) ∧
          ¬ EndedBy (p.serve (reliableDatabase cfg) q) p.running.length x userId ∨
        IssuedBy cfg (p.serve (reliableDatabase cfg) q) p.running.length x userId e := by
  constructor
  · rintro ⟨j, hissued, hkept⟩
    by_cases hj : j = p.running.length
    · exact Or.inr (hj ▸ hissued)
    · have hold := (issuedBy_serve_of_ne q hj x userId e).mp hissued
      refine Or.inl ⟨⟨j, hold, fun k hk hended => ?_⟩, hkept _ (hold.lt htrace)⟩
      exact hkept k hk ((endedBy_serve_of_ne q (Nat.ne_of_lt hended.lt) x userId).mpr hended)
  · rintro (⟨⟨j, hold, hkept⟩, hnow⟩ | hissued)
    · have hj := hold.lt htrace
      have hne := Nat.ne_of_lt hj
      refine ⟨j, (issuedBy_serve_of_ne q hne x userId e).mpr hold, fun k hk hended => ?_⟩
      by_cases hlast : k = p.running.length
      · exact hnow (hlast ▸ hended)
      · exact hkept k hk ((endedBy_serve_of_ne q hlast x userId).mp hended)
    · refine ⟨_, hissued, fun k hk hended => ?_⟩
      have hlength := hended.lt
      simp only [Pool.serve, List.length_append, List.length_singleton] at hlength
      omega

end Serve

/-- What a served call does to the sessions is what it adds to the history. -/
theorem SessionsRecorded.serve (h : SessionsRecorded cfg p) (q : AuthInvocation × List Bool) :
    SessionsRecorded cfg (p.serve (reliableDatabase cfg) q) := by
  have hserved := (code_served h.consistent (executed_eq_nil h.trace) q.1).eval q.2
  constructor
  · exact hserved.consistent
  · exact Pool.serve_trace h.trace q
  · intro x userId e
    have hvalid := hserved.valid x userId e
    rw [h.valid] at hvalid
    refine hvalid.trans (and_congr_right fun hlater => ?_)
    have hearlier := Nat.le_trans hserved.clock hlater
    rw [exists_openSince_serve q h.trace, endedBy_serve_self, and_iff_right hearlier]
    exact Iff.rfl

/-- In every run of whole calls, a token is accepted if and only if a call answered with
it, with an expiry that has not passed, and no call since has ended its session; and
without the nightly sweeps every other call ends as it does with them. -/
theorem refresh_accepts_iff_open (cfg : AuthConfig) (users : Table Account)
    (qs : List (AuthInvocation × List Bool)) :
    let sys := reliableDatabase cfg
    let p := (authPool users).serveAll sys qs
    let sweep (i : AuthInvocation) : Bool := i = .removeExpiredRefreshTokens
    let p' := (authPool users).serveAll sys (qs.filter fun q => !sweep q.1)
    (∀ x refusals, p.reply sys (.refresh x, refusals) = .ok () ↔
      ∃ j userId e, IssuedBy cfg p j x userId e ∧ p.world.shared.clock ≤ e ∧
        ∀ k, j < k → ¬ EndedBy p k x userId) ∧
      p.visible sweep = p'.visible sweep ∧
      p.world.shared.responses = p'.world.shared.responses ∧
      p.world.shared.sms = p'.world.shared.sms := by
  intro sys p sweep p'
  have hp : SessionsRecorded cfg p := by
    apply Pool.serveAll_keeps (G := SessionsRecorded cfg) _ (sessionsRecorded_init cfg users)
    exact fun _ q h => h.serve q
  obtain ⟨hsame, hvisible⟩ : AuthBackend.SameUnexpired cfg p.world.shared p'.world.shared ∧
      p.visible sweep = p'.visible sweep := by
    apply Pool.serveAll_hidden
    · intro i hi s t h
      exact code_alike (of_decide_eq_false hi) h
    · intro i hi s t h refusals
      cases of_decide_eq_true hi
      exact removeExpiredRefreshTokens_alone h refusals
    · exact .refl (AuthBackend.minted_signedUp users)
    · rfl
  refine ⟨fun x refusals => ?_, hvisible, ?_, ?_⟩
  · have hreply := ((code_served hp.consistent (executed_eq_nil hp.trace) (.refresh x)).eval
      refusals).refreshes x rfl
    apply Iff.trans hreply
    simp only [hp.valid]
    constructor
    · rintro ⟨userId, e, hlater, j, hissued, hkept⟩
      exact ⟨j, userId, e, hissued, hlater, hkept⟩
    · rintro ⟨j, userId, e, hissued, hlater, hkept⟩
      exact ⟨userId, e, hlater, j, hissued, hkept⟩
  · rw [hsame.rest]
    rfl
  · rw [hsame.rest]
    rfl

end SessionsRecorded

/-- The token of a login is accepted to the end of its lifetime, unless it is logged out. -/
theorem refresh_accepts_iff_open_login :
    let sys := reliableDatabase .default
    let login := (AuthInvocation.login ⟨"+2348012345678", "password123"⟩, ([] : List Bool))
    ((authPool oneUser).serveAll sys [login, (.elapse 900000, [])]).reply sys (.refresh "x", []) =
        .ok () ∧
      ((authPool oneUser).serveAll sys [login, (.logout "x", [])]).reply sys (.refresh "x", []) ≠
        .ok () := by
  intro sys login
  constructor
  · have hissued : IssuedBy .default ((authPool oneUser).serveAll sys
        [login, (.elapse 900000, [])]) 0 "x" "ada" 900000 := by
      let answered := ((authPool oneUser).run sys ((loginMoves 0).take 6)).world.shared
      exact ⟨.user, answered, List.mem_of_getElem? (i := 2) rfl,
        List.mem_of_getElem? (i := 5) rfl, by decide +kernel⟩
    refine ((refresh_accepts_iff_open .default oneUser [login, (.elapse 900000, [])]).1 "x"
      []).mpr ⟨0, "ada", 900000, hissued, by decide +kernel, ?_⟩
    rintro k hk ⟨i, r, hrun, hends⟩
    have hk : k = 1 := by
      have := (List.getElem?_eq_some_iff.mp hrun).1
      exact Nat.le_antisymm (Nat.lt_succ_iff.mp this) hk
    subst hk
    have hrun : some (AuthInvocation.elapse 900000, Call.done ()) = some (i, .ofExcept r) := hrun
    obtain ⟨rfl, -⟩ := Prod.mk.inj (Option.some.inj hrun)
    rcases hends with ⟨h, -⟩ | h | ⟨dto, h, -⟩ <;> cases h
  · intro hok
    obtain ⟨j, userId, e, ⟨role, s, -, hrespond, -⟩, -, hkept⟩ :=
      ((refresh_accepts_iff_open .default oneUser [login, (.logout "x", [])]).1 "x" []).mp hok
    have hlogin : ∀ c ∈ ((authPool oneUser).serveAll sys [login, (.logout "x", [])]).world.trace,
        c.op.quiet = false → c.call = 0 := by decide +kernel
    obtain ⟨c, hc, rfl, hop⟩ := mem_memory.mp hrespond
    have hj : c.call < 1 := by
      rw [hlogin c hc (congrArg (fun x => AuthStmt.quiet x.1) hop)]
      exact Nat.one_pos
    exact hkept 1 hj ⟨.logout "x", .ok (), rfl, Or.inr (Or.inl rfl)⟩

end Reedr
