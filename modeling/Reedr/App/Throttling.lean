import Reedr.App.Effects
import Reedr.Ride.Footprints

/-!
# How many messages get through

A limiter is asked before its message reaches a service, and a message it turns
away goes no further. It forgets a user when a socket of theirs closes, whichever
that is, so the limits hold as long as nothing that still counts is forgotten.
-/

namespace Reedr
open Relational Interleaving SlidingWindow

/-- The messages to the ride services that the gateway limits. -/
inductive LimitedMessage where
  | offerSubmit
  | offerAccept
  | locationUpdate
  deriving DecidableEq, Repr

namespace AppState
variable (s : AppState)

/-- The limiter each message is subject to. -/
def limiter : LimitedMessage → WsRateLimiter
  | .offerSubmit => s.limiters .offerSubmitLimiter
  | .offerAccept => s.limiters .offerAcceptLimiter
  | .locationUpdate => s.registry.ride.gateway.locationUpdateLimiter

end AppState

/-- The message a statement asks to be let through, and its sender. -/
def AppStmt.admits : AppStmt → Option (LimitedMessage × Id)
  | .consume .offerSubmitLimiter userId => some (.offerSubmit, userId)
  | .consume .offerAcceptLimiter userId => some (.offerAccept, userId)
  | .ride (.consumeLocationUpdate userId) => some (.locationUpdate, userId)
  | _ => none

/-- The statements of the services behind the limiters. -/
def AppStmt.serves : AppStmt → Bool
  | .ride (.consumeLocationUpdate _) => false
  | .ride _ => true
  | _ => false

/-- The limited message that a call handles, and its sender. -/
def AppInvocation.message? : AppInvocation → Option (LimitedMessage × Id)
  | .offerSubmit userId _ _ _ => some (.offerSubmit, userId)
  | .offerAccept userId _ _ => some (.offerAccept, userId)
  | .locationUpdate userId _ _ => some (.locationUpdate, userId)
  | _ => none

/-- What an executed statement did to the limiters. -/
inductive LimitersWrote (s s' : AppState) : AppStmt → Prop where
  | kept {o} (ho : o.admits = none) (hclock : s.clock ≤ s'.clock)
      (h : ∀ m, s'.limiter m = s.limiter m) : LimitersWrote s s' o
  | consumed {o m userId} (ho : o.admits = some (m, userId)) (hclock : s'.clock = s.clock)
      (h : s'.limiter m = ((s.limiter m).consume userId s.clock).2)
      (hne : ∀ m', m' ≠ m → s'.limiter m' = s.limiter m') : LimitersWrote s s' o
  | dropped {userId} (hclock : s'.clock = s.clock)
      (h : ∀ m, s'.limiter m = (s.limiter m).clear userId) :
      LimitersWrote s s' (.dropSocket userId)

section Effects
variable {cfg : Config}

theorem Backend.exec_locationUpdateLimiter {o : Stmt} {b : o.Res} {s s' : Backend}
    (h : exec cfg o s = .ok (b, s')) (ho : ∀ userId, o ≠ .consumeLocationUpdate userId) :
    s'.gateway.locationUpdateLimiter = s.gateway.locationUpdateLimiter := by
  by_cases hwrites : o.writesGateway = false
  · rw [(exec_frame h).gateway hwrites]
  · cases o with
    | emit ev =>
        cases h
        exact Gateway.handle_locationUpdateLimiter _ _ _
    | send userId m =>
        cases h
        rfl
    | consumeLocationUpdate userId => exact absurd rfl (ho userId)
    | _ => exact absurd rfl hwrites

namespace AppState
variable {s s' : AppState}

/-- A statement that leaves the gateway alone leaves the limiters alone. -/
private theorem limiters_kept {o : RatingStmt} {b : o.Res}
    (h : exec cfg (.rating o) s = .ok (b, s')) (ho : AppStmt.admits (.rating o) = none)
    (hclock : s.clock ≤ s'.clock) (hlimiter : s'.registry.ride.gateway.locationUpdateLimiter =
      s.registry.ride.gateway.locationUpdateLimiter) : LimitersWrote s s' (.rating o) := by
  apply LimitersWrote.kept ho hclock
  intro m
  cases m with
  | locationUpdate => exact hlimiter
  | offerSubmit =>
      rw [exec_rating h]
      rfl
  | offerAccept =>
      rw [exec_rating h]
      rfl

private theorem exec_ride_limiters {o : Stmt} {b : o.Res}
    (h : exec cfg (.ride o) s = .ok (b, s')) : LimitersWrote s s' (.ride o) := by
  have hride := exec_ride h
  by_cases ho : ∃ userId, o = .consumeLocationUpdate userId
  · obtain ⟨userId, rfl⟩ := ho
    have hrest := exec_rating h
    have hafter := (Except.ok.inj hride).symm
    have hclock : s'.clock = s.clock :=
      congrArg (fun r : _ × Backend => r.2.clock) hafter
    apply LimitersWrote.consumed (m := .locationUpdate) rfl hclock
    · exact congrArg (fun r : _ × Backend => r.2.gateway.locationUpdateLimiter) hafter
    · intro m hm
      rw [hrest]
      cases m with
      | locationUpdate => exact absurd rfl hm
      | offerSubmit => rfl
      | offerAccept => rfl
  · have ho : ∀ userId, o ≠ .consumeLocationUpdate userId := fun userId hu => ho ⟨userId, hu⟩
    apply limiters_kept h
    · cases o with
      | consumeLocationUpdate userId => exact absurd rfl (ho userId)
      | _ => rfl
    · exact Backend.exec_clock_le hride
    · exact Backend.exec_locationUpdateLimiter hride ho

theorem exec_limiters {o : AppStmt} {b : o.Res} (h : exec cfg o s = .ok (b, s')) :
    LimitersWrote s s' o := by
  cases o with
  | rating r =>
      by_cases hr : ∃ o, r = .onboarding (.ride o)
      · obtain ⟨o, rfl⟩ := hr
        exact exec_ride_limiters h
      · have hr : ∀ o, r ≠ .onboarding (.ride o) := fun o ho => hr ⟨o, ho⟩
        obtain ⟨hclock, hgateway⟩ := exec_rating_ride h hr
        apply limiters_kept h
        · cases r with
          | onboarding o =>
              cases o with
              | ride o => exact absurd rfl (hr o)
              | _ => rfl
          | _ => rfl
        · exact Nat.le_of_eq hclock.symm
        · exact congrArg Gateway.locationUpdateLimiter hgateway
  | dropSocket userId =>
      cases h
      apply LimitersWrote.dropped
      · rfl
      · intro m
        cases m <;> rfl
  | consume limit userId =>
      cases h
      cases limit with
      | offerSubmitLimiter =>
          apply LimitersWrote.consumed (m := .offerSubmit)
          · rfl
          · rfl
          · rfl
          · intro m hm
            cases m with
            | offerSubmit => exact absurd rfl hm
            | offerAccept => rfl
            | locationUpdate => rfl
      | offerAcceptLimiter =>
          apply LimitersWrote.consumed (m := .offerAccept)
          · rfl
          · rfl
          · rfl
          · intro m hm
            cases m with
            | offerAccept => exact absurd rfl hm
            | offerSubmit => rfl
            | locationUpdate => rfl
      | trackSubscribeLimiter =>
          apply LimitersWrote.kept rfl
          · exact Nat.le_refl s.clock
          · intro m
            cases m <;> rfl
  | _ =>
      cases h
      apply LimitersWrote.kept rfl
      · exact Nat.le_refl s.clock
      · intro m
        cases m <;> rfl

end AppState

end Effects

namespace LimitedMessage

/-- How many of a user's messages get through in a window. -/
def limit : LimitedMessage → Nat
  | .offerSubmit | .offerAccept => 5
  | .locationUpdate => 3

def windowMs : LimitedMessage → Millis
  | .offerSubmit | .offerAccept => 5000
  | .locationUpdate => 1000

end LimitedMessage

/-- The limiters of a gateway that has just started. -/
def AppState.FreshLimiters (s : AppState) : Prop :=
  ∀ m, s.limiter m = { limit := m.limit, windowMs := m.windowMs }

/-- The message a statement lets through to its service, and its sender. -/
def passes (c : Commit appSignature AppState AppInvocation) (m : LimitedMessage) (userId : Id) :
    Bool :=
  c.op.admits = some (m, userId) ∧ ((c.before.limiter m).consume userId c.before.clock).1

/-- When the limiter let a user's messages through. -/
def passed (w : AppWorld) (m : LimitedMessage) (userId : Id) : List Millis :=
  (w.trace.filter fun c => passes c m userId).map fun c => c.before.clock

/-- The statement asked the limiter for a message that was let through or whose call
has executed a statement of the service anyway. -/
def reaches (w : AppWorld) (c : Commit appSignature AppState AppInvocation) (m : LimitedMessage)
    (userId : Id) : Bool :=
  c.inv.message? = some (m, userId) ∧ c.op.admits = some (m, userId) ∧
    (passes c m userId ∨ w.trace.any fun d => d.call = c.call ∧ d.op.serves)

/-- When a user's messages reached their service. A handler enters the service in the
turn in which it asks the limiter. -/
def reached (w : AppWorld) (m : LimitedMessage) (userId : Id) : List Millis :=
  (w.trace.filter fun c => reaches w c m userId).map fun c => c.before.clock

/-- The per-user limits of the gateway. -/
structure WithinLimits (w : AppWorld) : Prop where
  /-- No window of time has more of a user's messages reach their service than the limit. -/
  bounded : ∀ m userId, Bounded m.limit m.windowMs (reached w m userId)
  /-- Behind a message that has got into its service stands a limiter's consent. -/
  admitted : ∀ c ∈ w.trace, ∀ m userId, c.inv.message? = some (m, userId) → c.op.serves = true →
    ∃ d ∈ w.trace, d.call = c.call ∧ reaches w d m userId ∧ passes d m userId

/-- A socket is dropped while none of its user's messages counts any more. -/
def DropsQuiet (w : AppWorld) (_ : AppInvocation) : AppStmt → Prop
  | .dropSocket userId =>
      ∀ m : LimitedMessage, counting m.windowMs w.shared.clock (passed w m userId) = []
  | _ => True

instance {P : LimitedMessage → Prop} [DecidablePred P] : Decidable (∀ m, P m) :=
  decidable_of_iff (P .offerSubmit ∧ P .offerAccept ∧ P .locationUpdate) <| by
    constructor
    · rintro ⟨hsubmit, haccept, hlocation⟩ m
      cases m with
      | offerSubmit => exact hsubmit
      | offerAccept => exact haccept
      | locationUpdate => exact hlocation
    · exact fun h => ⟨h _, h _, h _⟩

instance (w : AppWorld) (i : AppInvocation) : (o : AppStmt) → Decidable (DropsQuiet w i o)
  | .dropSocket _ => inferInstanceAs (Decidable (∀ _ : LimitedMessage, _))
  | .rating _ | .findUserMode _ | .joinRoom _ | .consume _ _ | .setTrackSubscription _ _
  | .deleteTrackSubscription _ | .emitError _ _ => inferInstanceAs (Decidable True)

/-- The limiters are set up as they were and account for what has passed. -/
private structure Limited (w : AppWorld) : Prop where
  limit : ∀ m, (w.shared.limiter m).limit = m.limit
  windowMs : ∀ m, (w.shared.limiter m).windowMs = m.windowMs
  accounts : ∀ m userId, (w.shared.limiter m).Accounts userId (passed w m userId) w.shared.clock
  bounded : ∀ m userId, Bounded m.limit m.windowMs (passed w m userId)

section Runs
variable {cfg : Config} {w : AppWorld} {n : Nat} {i : AppInvocation} {o : AppStmt} {s' : AppState}

theorem passed_commit (m : LimitedMessage) (userId : Id) :
    passed (w.commit n i o s') m userId = passed w m userId ++
      if passes ⟨n, i, o, w.shared⟩ m userId then [w.shared.clock] else [] := by
  simp only [passed, World.commit_trace, List.filter_append, List.map_append]
  split
  · next hpass => simp [hpass]
  · next hpass => simp [hpass]

theorem passed_commit_of_ne {m : LimitedMessage} {userId : Id}
    (h : o.admits ≠ some (m, userId)) :
    passed (w.commit n i o s') m userId = passed w m userId := by
  simp [passed_commit, passes, h]

private theorem Limited.kept (h : Limited w) (ho : o.admits = none)
    (hclock : w.shared.clock ≤ s'.clock) (hs : ∀ m, s'.limiter m = w.shared.limiter m) :
    Limited (w.commit n i o s') := by
  have hpassed (m : LimitedMessage) (userId : Id) :
      passed (w.commit n i o s') m userId = passed w m userId :=
    passed_commit_of_ne (by simp [ho])
  constructor
  · intro m
    rw [World.commit_shared, hs, h.limit]
  · intro m
    rw [World.commit_shared, hs, h.windowMs]
  · intro m userId
    rw [hpassed, World.commit_shared, hs]
    exact (h.accounts m userId).mono hclock
  · intro m userId
    rw [hpassed]
    exact h.bounded m userId

/-- What another message or another user's message does to the account of a key. -/
private theorem Limited.accounts_elsewhere (h : Limited w) {m m' : LimitedMessage}
    {userId userId' : Id} (hclock : s'.clock = w.shared.clock)
    (hs : s'.limiter m = ((w.shared.limiter m).consume userId w.shared.clock).2)
    (hne : ∀ m', m' ≠ m → s'.limiter m' = w.shared.limiter m')
    (hkey : (m', userId') ≠ (m, userId)) :
    (s'.limiter m').Accounts userId' (passed w m' userId') s'.clock := by
  have hold := h.accounts m' userId'
  rw [hclock]
  by_cases hm : m' = m
  · subst hm
    have huser : userId' ≠ userId := fun hu => hkey (by rw [hu])
    rw [hs]
    exact hold.consume_of_ne huser
  · rw [hne m' hm]
    exact hold

private theorem Limited.consumed (h : Limited w) {m : LimitedMessage} {userId : Id}
    (ho : o.admits = some (m, userId)) (hclock : s'.clock = w.shared.clock)
    (hs : s'.limiter m = ((w.shared.limiter m).consume userId w.shared.clock).2)
    (hne : ∀ m', m' ≠ m → s'.limiter m' = w.shared.limiter m') : Limited (w.commit n i o s') := by
  have hpassed : passed (w.commit n i o s') m userId = passed w m userId ++
      if ((w.shared.limiter m).consume userId w.shared.clock).1
        then [w.shared.clock] else [] := by
    simp [passed_commit, passes, ho]
  have helse {m' : LimitedMessage} {userId' : Id} (hkey : (m', userId') ≠ (m, userId)) :
      passed (w.commit n i o s') m' userId' = passed w m' userId' :=
    passed_commit_of_ne fun heq => hkey (Option.some.inj (ho.symm.trans heq)).symm
  constructor
  · intro m'
    rw [World.commit_shared]
    by_cases hm : m' = m
    · rw [hm, hs, WsRateLimiter.consume_limit, h.limit]
    · rw [hne m' hm, h.limit]
  · intro m'
    rw [World.commit_shared]
    by_cases hm : m' = m
    · rw [hm, hs, WsRateLimiter.consume_windowMs, h.windowMs]
    · rw [hne m' hm, h.windowMs]
  · intro m' userId'
    rw [World.commit_shared]
    by_cases hkey : (m', userId') = (m, userId)
    · cases hkey
      rw [hpassed, hs, hclock]
      exact (h.accounts m userId).consume
    · rw [helse hkey]
      exact h.accounts_elsewhere hclock hs hne hkey
  · intro m' userId'
    by_cases hkey : (m', userId') = (m, userId)
    · cases hkey
      rw [hpassed]
      by_cases hallowed : ((w.shared.limiter m).consume userId w.shared.clock).1 = true
      · have hfree := (h.accounts m userId).allows_iff.mp hallowed
        rw [h.limit, h.windowMs] at hfree
        rw [if_pos hallowed]
        exact (h.bounded m userId).append hfree
      · rw [if_neg hallowed, List.append_nil]
        exact h.bounded m userId
    · rw [helse hkey]
      exact h.bounded m' userId'

private theorem Limited.dropped (h : Limited w) {userId : Id}
    (hquiet : ∀ m : LimitedMessage, counting m.windowMs w.shared.clock (passed w m userId) = [])
    (hclock : s'.clock = w.shared.clock)
    (hs : ∀ m, s'.limiter m = (w.shared.limiter m).clear userId) :
    Limited (w.commit n i (.dropSocket userId) s') := by
  have hpassed (m : LimitedMessage) (userId' : Id) :
      passed (w.commit n i (.dropSocket userId) s') m userId' = passed w m userId' :=
    passed_commit_of_ne nofun
  constructor
  · intro m
    rw [World.commit_shared, hs]
    exact h.limit m
  · intro m
    rw [World.commit_shared, hs]
    exact h.windowMs m
  · intro m userId'
    have hold := h.accounts m userId'
    rw [hpassed, World.commit_shared, hs, hclock]
    by_cases hu : userId' = userId
    · subst hu
      apply hold.clear
      rw [hold, h.windowMs]
      exact hquiet m
    · exact hold.clear_of_ne hu
  · intro m userId'
    rw [hpassed]
    exact h.bounded m userId'

private theorem Limited.commit (h : Limited w) (hquiet : DropsQuiet w i o) {b : o.Res}
    (hx : AppState.exec cfg o w.shared = .ok (b, s')) : Limited (w.commit n i o s') := by
  cases AppState.exec_limiters hx with
  | kept ho hclock hs => exact h.kept ho hclock hs
  | consumed ho hclock hs hne => exact h.consumed ho hclock hs hne
  | dropped hclock hs => exact h.dropped hquiet hclock hs

end Runs

section Calls
variable {cfg : Config} {i : AppInvocation} {m : LimitedMessage} {userId : Id}

/-- A call for a message has not entered the service, or its limiter consented. -/
private def Screened (i : AppInvocation) (l : List (AppStmt × AppState)) : Prop :=
  ∀ m userId, i.message? = some (m, userId) → (∀ x ∈ l, x.1.serves = false) ∨
    (∃ x ∈ l, x.1.admits = some (m, userId)) ∧ ∀ x ∈ l, x.1.admits = some (m, userId) →
      ((x.2.limiter m).consume userId x.2.clock).1 = true

private theorem screened_nil : Screened i [] :=
  fun _ _ _ => Or.inl fun _ hx => absurd hx List.not_mem_nil

private theorem AppStmt.serves_of_admits {o : AppStmt} (h : o.admits = some (m, userId)) :
    o.serves = false := by
  unfold admits at h
  split at h
  · rfl
  · rfl
  · rfl
  · cases h

/-- What is left of a call once its limiter has answered keeps away from the service
if the answer was no, and asks no limiter again. -/
private theorem recalls_answer (hi : i.message? = some (m, userId)) {o : AppStmt} {s : AppState}
    {allowed : Bool} (ho : o.admits = some (m, userId))
    (hanswer : ((s.limiter m).consume userId s.clock).1 = allowed) {c : AppCall Unit}
    (hno : allowed = false → c.Uses fun o : AppStmt => o.serves = false)
    (hyes : allowed = true → c.Uses fun o : AppStmt => o.admits = none) :
    c.Recalls (appSystem cfg) (fun _ => True) (fun l _ => Screened i l) (fun l _ => Screened i l)
      [(o, s)] := by
  cases allowed with
  | false =>
      let Q (l : List (AppStmt × AppState)) : Prop := ∀ x ∈ l, x.1.serves = false
      apply Call.Recalls.of_uses (Q := Q) (hno rfl)
      · exact fun l o hl _ _ _ _ => Or.inl hl
      · intro l o s hl ho x hx
        rcases List.mem_append.mp hx with hx | hx
        · exact hl x hx
        · rwa [List.mem_singleton.mp hx]
      · exact fun l _ hl _ _ _ => Or.inl hl
      · intro x hx
        rw [List.mem_singleton.mp hx]
        exact AppStmt.serves_of_admits ho
  | true =>
      let Q (l : List (AppStmt × AppState)) : Prop := (∃ x ∈ l, x.1.admits = some (m, userId)) ∧
        ∀ x ∈ l, x.1.admits = some (m, userId) →
          ((x.2.limiter m).consume userId x.2.clock).1 = true
      have hQ {l : List (AppStmt × AppState)} (hl : Q l) : Screened i l := by
        intro m' userId' hi'
        cases hi.symm.trans hi'
        exact Or.inr hl
      apply Call.Recalls.of_uses (Q := Q) (hyes rfl)
      · exact fun l o hl _ => hQ hl
      · rintro l o s ⟨⟨x, hx, hxo⟩, hall⟩ ho
        refine ⟨⟨x, List.mem_append_left _ hx, hxo⟩, fun y hy hyo => ?_⟩
        rcases List.mem_append.mp hy with hy | hy
        · exact hall y hy hyo
        · rw [List.mem_singleton.mp hy, ho] at hyo
          cases hyo
      · exact fun l _ hl => hQ hl
      · refine ⟨⟨_, List.mem_singleton_self _, ho⟩, fun y hy _ => ?_⟩
        rw [List.mem_singleton.mp hy]
        exact hanswer

private theorem reporting_asks {α : Type} {c : RideCall α}
    (h : c.Uses fun o : Stmt => AppStmt.admits (.ride o) = none) :
    (RealtimeGateway.reporting userId c).Uses fun o : AppStmt => o.admits = none :=
  Call.Uses.recover (Call.Uses.embed (fun _ ho => ho) (Call.Uses.void h))
    fun _ => Call.Uses.perform rfl

private theorem onOfferSubmit_recalls (rideRequestId : Id) (offeredFare : Fare) (uuid : Id) :
    ((appSystem cfg).code (.offerSubmit userId rideRequestId offeredFare uuid)).Recalls
      (appSystem cfg) (fun _ => True)
      (fun l _ => Screened (.offerSubmit userId rideRequestId offeredFare uuid) l)
      (fun l _ => Screened (.offerSubmit userId rideRequestId offeredFare uuid) l) [] := by
  show (RealtimeGateway.onOfferSubmit cfg userId rideRequestId offeredFare uuid).Recalls _ _ _ _ _
  apply Call.Recalls.perform_bind screened_nil _ fun _ _ => screened_nil
  intro s allowed s' _ hx
  have hanswer : ((s.limiter .offerSubmit).consume userId s.clock).1 = allowed :=
    congrArg Prod.fst (Except.ok.inj hx)
  apply recalls_answer (m := .offerSubmit) rfl rfl hanswer
  · rintro rfl
    exact Call.Uses.perform rfl
  · rintro rfl
    exact reporting_asks (OffersService.submitOffer_uses (fun _ => rfl) (fun _ => rfl)
      (fun _ _ _ _ => rfl) (fun _ => rfl) (fun _ => rfl) (fun _ => rfl) (fun _ _ => rfl) _ _ _ _)

private theorem onOfferAccept_recalls (offerId uuid : Id) :
    ((appSystem cfg).code (.offerAccept userId offerId uuid)).Recalls (appSystem cfg)
      (fun _ => True) (fun l _ => Screened (.offerAccept userId offerId uuid) l)
      (fun l _ => Screened (.offerAccept userId offerId uuid) l) [] := by
  show (RealtimeGateway.onOfferAccept userId offerId uuid).Recalls _ _ _ _ _
  apply Call.Recalls.perform_bind screened_nil _ fun _ _ => screened_nil
  intro s allowed s' _ hx
  have hanswer : ((s.limiter .offerAccept).consume userId s.clock).1 = allowed :=
    congrArg Prod.fst (Except.ok.inj hx)
  apply recalls_answer (m := .offerAccept) rfl rfl hanswer
  · rintro rfl
    exact Call.Uses.perform rfl
  · rintro rfl
    exact reporting_asks (OffersService.acceptOffer_uses (fun _ => rfl) (fun _ _ => rfl)
      (fun _ => rfl) (fun _ => rfl) (fun _ => rfl) (fun _ _ _ _ => rfl) _ _ _)

private theorem onLocationUpdate_recalls (lat lng : Coord) :
    ((appSystem cfg).code (.locationUpdate userId lat lng)).Recalls (appSystem cfg)
      (fun _ => True) (fun l _ => Screened (.locationUpdate userId lat lng) l)
      (fun l _ => Screened (.locationUpdate userId lat lng) l) [] := by
  refine ⟨screened_nil, fun s (allowed : Bool) s' _ hx => ?_, fun _ _ => screened_nil⟩
  have hx : AppState.exec cfg (.ride (.consumeLocationUpdate userId)) s = .ok (allowed, s') := hx
  have hanswer : ((s.limiter .locationUpdate).consume userId s.clock).1 = allowed :=
    congrArg Prod.fst (Except.ok.inj (AppState.exec_ride hx))
  apply recalls_answer (m := .locationUpdate) rfl rfl hanswer
  · rintro rfl
    exact trivial
  · rintro rfl
    refine Call.Uses.embed (P := fun o : Stmt => AppStmt.admits (.ride o) = none)
      (fun _ ho => ho) (Call.Uses.recover (Call.Uses.bind ?_ fun _ =>
        Call.Uses.bind (Call.Uses.perform rfl) fun rider => ?_) fun _ => trivial)
    · exact DriversService.updateLocation_uses (DriversService.findIdentityByUserId_uses
        (fun _ => rfl) (fun _ => rfl) fun _ _ => rfl) rfl (fun _ => rfl) fun _ _ _ => rfl
    · cases rider with
      | none => trivial
      | some riderId => exact Call.Uses.perform rfl

private theorem screened_of_not_message (hi : i.message? = none) :
    ((appSystem cfg).code i).Recalls (appSystem cfg) (fun _ => True) (fun l _ => Screened i l)
      (fun l _ => Screened i l) [] := by
  have h (l : List (AppStmt × AppState)) : Screened i l := by
    intro m userId hm
    cases hi.symm.trans hm
  exact Call.Recalls.of_uses (Q := fun _ => True) (Call.Uses.any _) (fun l _ _ _ => h l)
    (fun _ _ _ _ _ => trivial) (fun l _ _ => h l) trivial

private theorem messages_recall : MemoryInvariant (appSystem cfg) (fun _ => True) fun i l c =>
    c.Recalls (appSystem cfg) (fun _ => True) (fun l _ => Screened i l)
      (fun l _ => Screened i l) l := by
  apply MemoryInvariant.of_recalls fun _ _ => trivial
  intro i
  cases i with
  | offerSubmit userId rideRequestId offeredFare uuid => exact onOfferSubmit_recalls _ _ _
  | offerAccept userId offerId uuid => exact onOfferAccept_recalls _ _
  | locationUpdate userId lat lng => exact onLocationUpdate_recalls _ _
  | _ => exact screened_of_not_message rfl

/-- In every interleaving, what a call remembers is screened at every point of it. -/
private theorem screened_run (s : AppState) (ms : List AppMove)
    {c : Commit appSignature AppState AppInvocation}
    (hc : c ∈ ((Pool.init s).run (appSystem cfg) ms).world.trace) :
    Screened c.inv (memory c.call ((Pool.init s).run (appSystem cfg) ms).world.trace) := by
  have hnamed : ((Pool.init s).run (appSystem cfg) ms).Attributed :=
    Pool.attributed_run (Pool.attributed_init _) ms
  have hcall := hnamed c hc
  rw [Pool.invoked, List.getElem?_map, Option.map_eq_some_iff] at hcall
  obtain ⟨⟨i, d⟩, hd, hi⟩ := hcall
  cases hi
  have hrecalls := (messages_recall.holds_run (MemoryInvariant.holds_init trivial) ms).thread hd
  cases d with
  | done a => exact hrecalls
  | fail e => exact hrecalls
  | step o k => exact hrecalls.1

end Calls

section Reached
variable {cfg : Config} {s : AppState} {ms : List AppMove} {m : LimitedMessage} {userId : Id}

/-- Whatever reaches a service was let through. -/
private theorem passes_of_reaches {c : Commit appSignature AppState AppInvocation}
    (hc : c ∈ ((Pool.init s).run (appSystem cfg) ms).world.trace)
    (h : reaches ((Pool.init s).run (appSystem cfg) ms).world c m userId = true) :
    passes c m userId = true := by
  obtain ⟨hinv, hop, hpass | hserved⟩ := of_decide_eq_true h
  · exact hpass
  · obtain ⟨d, hd, hserves⟩ := List.any_eq_true.mp hserved
    obtain ⟨hcall, hserves⟩ := of_decide_eq_true hserves
    rcases screened_run s ms hc m userId hinv with hnone | ⟨-, hall⟩
    · have := hnone (d.op, d.before) (mem_memory.mpr ⟨d, hd, hcall, rfl⟩)
      exact absurd (hserves.symm.trans this) Bool.noConfusion
    · have hconsent := hall (c.op, c.before) (mem_memory.mpr ⟨c, hc, rfl, rfl⟩) hop
      exact decide_eq_true ⟨hop, hconsent⟩

private theorem reached_sublist (m : LimitedMessage) (userId : Id) : List.Sublist
    (reached ((Pool.init s).run (appSystem cfg) ms).world m userId)
    (passed ((Pool.init s).run (appSystem cfg) ms).world m userId) := by
  have hfilter : ((Pool.init s).run (appSystem cfg) ms).world.trace.filter
      (fun c => reaches ((Pool.init s).run (appSystem cfg) ms).world c m userId) =
      (((Pool.init s).run (appSystem cfg) ms).world.trace.filter fun c => passes c m userId).filter
        fun c => reaches ((Pool.init s).run (appSystem cfg) ms).world c m userId := by
    rw [List.filter_filter]
    apply List.filter_congr
    intro c hc
    cases h : reaches ((Pool.init s).run (appSystem cfg) ms).world c m userId with
    | false => rfl
    | true => simp [passes_of_reaches hc h]
  unfold reached passed
  rw [hfilter]
  exact List.filter_sublist.map _

/-- A call is in a service with its limiter's consent. -/
private theorem consent_of_serves {c : Commit appSignature AppState AppInvocation}
    (hc : c ∈ ((Pool.init s).run (appSystem cfg) ms).world.trace)
    (hinv : c.inv.message? = some (m, userId)) (hserves : c.op.serves = true) :
    ∃ d ∈ ((Pool.init s).run (appSystem cfg) ms).world.trace, d.call = c.call ∧
      reaches ((Pool.init s).run (appSystem cfg) ms).world d m userId ∧ passes d m userId := by
  have hmemory : (c.op, c.before) ∈ memory c.call
      ((Pool.init s).run (appSystem cfg) ms).world.trace := mem_memory.mpr ⟨c, hc, rfl, rfl⟩
  rcases screened_run s ms hc m userId hinv with hnone | ⟨⟨x, hx, hop⟩, hall⟩
  · exact absurd (hserves.symm.trans (hnone _ hmemory)) Bool.noConfusion
  · obtain ⟨d, hd, hcall, rfl⟩ := mem_memory.mp hx
    have hpass : passes d m userId = true := decide_eq_true ⟨hop, hall _ hx hop⟩
    have hnamed : ((Pool.init s).run (appSystem cfg) ms).Attributed :=
      Pool.attributed_run (Pool.attributed_init _) ms
    have hdinv : some d.inv = some c.inv := by rw [← hnamed d hd, ← hnamed c hc, hcall]
    refine ⟨d, hd, hcall, decide_eq_true ⟨?_, hop, Or.inl hpass⟩, hpass⟩
    rw [Option.some.inj hdinv, hinv]

end Reached

/-- However sockets come and go and messages arrive, no window of time has more of a
user's messages reach their service than the limit, as long as every socket is dropped
while none of its user's messages counts any more. -/
theorem within_limits (cfg : Config) (s : AppState) (hs : s.FreshLimiters) (ms : List AppMove)
    (hquiet : AllCommits (appSystem cfg) DropsQuiet (Pool.init s) ms) :
    WithinLimits ((Pool.init s).run (appSystem cfg) ms).world := by
  have hstart : Limited (.init s) := by
    constructor
    · intro m
      rw [World.init_shared, hs m]
    · intro m
      rw [World.init_shared, hs m]
    · intro m userId
      show counting _ _ ((s.limiter m).hits userId) = counting _ _ []
      rw [hs m]
    · exact fun m userId => bounded_nil
  have hlimited := hquiet.invariant (fun h hquiet hx => Limited.commit h hquiet hx) hstart
  constructor
  · exact fun m userId => (hlimited.bounded m userId).sublist (reached_sublist m userId)
  · exact fun c hc m userId hinv hserves => consent_of_serves hc hinv hserves

/-- Nobody is connected and nothing has been asked yet. -/
def justStarted : AppState where
  rated := .unrated
    { users := .empty
      driverApplications := .empty
      driverDocuments := .empty
      files := fun _ => none
      ride := Backend.empty }

theorem justStarted_fresh : justStarted.FreshLimiters := by
  intro m
  cases m <;> rfl

/-- A driver's messages to place an offer, the first of them call `n`, each until the
service has looked for the driver's profile. -/
def submissions (n count : Nat) : List AppMove :=
  (List.range count).flatMap fun k =>
    [.invoke (.offerSubmit "driver" "request" 1500 "offer"), .advance (n + k), .advance (n + k)]

/-- A driver uses up the limit, waits, leaves and comes back for another offer. -/
def pausedDriver : List AppMove :=
  [.invoke (.connect "driver"), .advance 0] ++ submissions 1 5 ++
    [.invoke (.onboarding (.elapse 5000)), .advance 6, .invoke (.disconnect "driver"),
      .advance 7, .invoke (.connect "driver"), .advance 8] ++ submissions 9 1

theorem within_limits_pausedDriver : justStarted.FreshLimiters ∧
    AllCommits (appSystem .default) DropsQuiet (Pool.init justStarted) pausedDriver ∧
    WithinLimits ((Pool.init justStarted).run (appSystem .default) pausedDriver).world := by
  have hquiet : AllCommits (appSystem .default) DropsQuiet (Pool.init justStarted)
      pausedDriver := by
    unfold AllCommits
    decide +kernel
  exact ⟨justStarted_fresh, hquiet, within_limits .default justStarted justStarted_fresh
    pausedDriver hquiet⟩

/-- One of a driver's two sockets closes after the fifth offer, and a sixth follows. -/
def secondSocket : List AppMove :=
  [.invoke (.connect "driver"), .advance 0, .invoke (.connect "driver"), .advance 1] ++
    submissions 2 5 ++ [.invoke (.disconnect "driver"), .advance 7] ++ submissions 8 1

/-- Six offers reach the service at one moment. -/
theorem not_withinLimits_secondSocket :
    let w := ((Pool.init justStarted).run (appSystem .default) secondSocket).world
    justStarted.FreshLimiters ∧ ¬ WithinLimits w ∧
      ∀ n ∈ [2, 3, 4, 5, 6, 8], ∃ c ∈ w.trace, c.call = n ∧ c.before.clock = 0 ∧
        c.inv.message? = some (.offerSubmit, "driver") ∧ c.op.serves = true := by
  refine ⟨justStarted_fresh, fun h => absurd (h.bounded .offerSubmit "driver" 0) ?_, ?_⟩
  · decide +kernel
  · decide +kernel

end Reedr
