import Reedr.Ride.Turns

/-!
# Times and reasons on the ride tables

Each service stamps its rows with the clock it reads before it writes. Where
calls take turns the stamps of a ride are in the order of its life, none of them
lies ahead of the clock, and a cancelled trip carries the reason of its request.
-/

namespace Reedr
open Relational Interleaving

/-- The position of a driver is stored whole, with a time that has passed. -/
def DriverProfile.Timely (clock : Millis) (p : DriverProfile) : Prop :=
  (p.currentLat = none ∧ p.currentLng = none ∧ p.locationUpdatedAt = none) ∨
    ∃ lat lng, ∃ s ≤ clock, p.currentLat = some lat ∧ p.currentLng = some lng ∧
      p.locationUpdatedAt = some s

/-- Only a cancelled request has a reason, and it has the time of its end. -/
def RideRequest.Timely (clock : Millis) (r : RideRequest) : Prop :=
  if r.status = .cancelled then ∃ c ≤ clock, r.cancelledAt = some c
  else r.cancelledAt = none ∧ r.cancelReason = none

/-- A trip has the times its status speaks of, in order, and no other. -/
def Trip.Timely (clock : Millis) (t : Trip) : Prop :=
  match t.status with
  | .matched | .cancelled => t.startedAt = none ∧ t.endedAt = none
  | .started => (∃ s ≤ clock, t.startedAt = some s) ∧ t.endedAt = none
  | .completed => ∃ s e, s ≤ e ∧ e ≤ clock ∧ t.startedAt = some s ∧ t.endedAt = some e

/-- The stamps of all rows, and the reason a trip shares with its request. -/
structure RideTables.Timeline (clock : Millis) (db : RideTables) : Prop where
  profiles : ∀ p ∈ db.driverProfiles, p.Timely clock
  requests : ∀ r ∈ db.rideRequests, r.Timely clock
  trips : ∀ t ∈ db.trips, t.Timely clock
  reasons : ∀ t ∈ db.trips, ∀ r ∈ db.rideRequests, r.id = t.rideRequestId →
    t.cancelReason = r.cancelReason

section Clock
variable {clock clock' : Millis} (hle : clock ≤ clock')
include hle

theorem DriverProfile.Timely.mono {p : DriverProfile} (h : p.Timely clock) : p.Timely clock' := by
  rcases h with h | ⟨lat, lng, s, hs, hp⟩
  · exact Or.inl h
  · exact Or.inr ⟨lat, lng, s, Nat.le_trans hs hle, hp⟩

theorem RideRequest.Timely.mono {r : RideRequest} (h : r.Timely clock) : r.Timely clock' := by
  unfold RideRequest.Timely at h ⊢
  split at h
  · next hst =>
      obtain ⟨c, hc, hat⟩ := h
      rw [if_pos hst]
      exact ⟨c, Nat.le_trans hc hle, hat⟩
  · next hst => rwa [if_neg hst]

theorem Trip.Timely.mono {t : Trip} (h : t.Timely clock) : t.Timely clock' := by
  unfold Trip.Timely at h ⊢
  cases hst : t.status <;> rw [hst] at h <;> dsimp only at h ⊢
  · exact h
  · obtain ⟨⟨s, hs, hat⟩, hend⟩ := h
    exact ⟨⟨s, Nat.le_trans hs hle, hat⟩, hend⟩
  · obtain ⟨s, e, hse, he, hat⟩ := h
    exact ⟨s, e, hse, Nat.le_trans he hle, hat⟩
  · exact h

/-- Time passing makes no stamp untimely. -/
theorem RideTables.Timeline.mono {db : RideTables} (h : db.Timeline clock) :
    db.Timeline clock' where
  profiles p hp := (h.profiles p hp).mono hle
  requests r hr := (h.requests r hr).mono hle
  trips t ht := (h.trips t ht).mono hle
  reasons := h.reasons

end Clock

/-- The stamps a statement writes, at the world in which it is executed. -/
def Stamps (w : RideWorld) (_ : Invocation) : Stmt → Prop
  | .createDriverProfile p => p.Timely w.shared.clock
  | .setLocation _ _ _ now => now = w.shared.clock
  | .createRideRequest r => r.cancelledAt = none ∧ r.cancelReason = none
  | .cancelBatch c => c.cancelledAt = w.shared.clock
  | .startBatch u | .completeBatch u => u.now = w.shared.clock
  | _ => True

/-- The statements that write no stamp. -/
def Stmt.unstamped : Stmt → Bool
  | .createDriverProfile _ | .setLocation _ _ _ _ | .createRideRequest _ | .cancelBatch _
  | .startBatch _ | .completeBatch _ => false
  | _ => true

section Stamps
variable {cfg : Config} {i : Invocation} {w : RideWorld}

private theorem stamps_of_uses {α : Type} {c : RideCall α}
    (h : c.Uses fun o : Stmt => o.unstamped = true) :
    Justified (rideSystem cfg) Recorded Eq Stamps i c w :=
  Justified.of_uses (fun _ o ho => by cases o <;> trivial) h

/-- What is written right after the clock was read is stamped with the clock. -/
private theorem stamps_now {α : Type} {o : Millis → Stmt}
    {f : (n : Millis) → (o n).Res → RideCall α}
    (ho : ∀ w, Stamps w i (o w.shared.clock))
    (hf : ∀ n r, (f n r).Uses fun o : Stmt => o.unstamped = true) :
    Justified (rideSystem cfg) Recorded Eq Stamps i
      (perform .now >>= fun n => perform (o n) >>= f n) w := by
  refine Justified.perform_bind fun w₁ _ _ => ⟨trivial, ?_⟩
  rintro now s ⟨⟩ n
  refine Justified.perform_bind fun w₂ _ hw₂ => ⟨?_, fun b s _ m => stamps_of_uses (hf _ b)⟩
  subst hw₂
  exact ho _

private theorem findOwnedByDriver_unstamped (tripId driverUserId : Id) :
    (TripsService.findOwnedByDriver tripId driverUserId).Uses
      fun o : Stmt => o.unstamped = true :=
  TripsService.findOwnedByDriver_uses (fun _ => rfl) tripId driverUserId

private theorem findIdentityByUserId_unstamped (userId : Id) :
    (DriversService.findIdentityByUserId userId).Uses fun o : Stmt => o.unstamped = true :=
  DriversService.findIdentityByUserId_uses (fun _ => rfl) (fun _ => rfl) (fun _ _ => rfl) userId

private theorem process_unstamped (job : OfferExpiryJob) :
    (OfferExpiryProcessor.process job).Uses fun o : Stmt => o.unstamped = true :=
  OfferExpiryProcessor.process_uses (fun _ => rfl) (fun _ => rfl) (fun _ _ _ => rfl)
    (fun _ => rfl) (fun _ => rfl) job

private theorem cancel_stamps (id requester : Id) (reason : Option String) :
    Justified (rideSystem cfg) Recorded Eq Stamps i
      (RideRequestsService.cancel cfg id requester reason) w := by
  refine Justified.perform_bind fun w₁ _ _ => ⟨trivial, fun b s _ n => ?_⟩
  refine Justified.required_bind fun x _ => ?_
  refine Justified.ensure_bind fun _ => Justified.ensure_bind fun _ => ?_
  exact stamps_now (fun _ => rfl) fun _ _ =>
    Call.Uses.bind (Call.Uses.perform rfl) fun _ => Call.Uses.ofExcept _

private theorem start_stamps (tripId driverUserId : Id) :
    Justified (rideSystem cfg) Recorded Eq Stamps i
      (TripsService.start cfg tripId driverUserId) w := by
  refine Justified.bind (stamps_of_uses (findOwnedByDriver_unstamped _ _)) fun t _ => ?_
  refine Justified.ensure_bind fun _ => stamps_now (fun _ => rfl) fun _ _ =>
    Call.Uses.bind (Call.Uses.perform rfl) fun _ => Call.Uses.ofExcept _

private theorem complete_stamps (tripId driverUserId : Id) :
    Justified (rideSystem cfg) Recorded Eq Stamps i
      (TripsService.complete cfg tripId driverUserId) w := by
  refine Justified.bind (stamps_of_uses (findOwnedByDriver_unstamped _ _)) fun t _ => ?_
  refine Justified.ensure_bind fun _ => stamps_now (fun _ => rfl) fun _ _ =>
    Call.Uses.bind (Call.Uses.perform rfl) fun _ => Call.Uses.ofExcept _

private theorem updateLocation_stamps (userId : Id) (lat lng : Coord) :
    Justified (rideSystem cfg) Recorded Eq Stamps i
      (DriversService.updateLocation userId lat lng) w := by
  refine Justified.bind (stamps_of_uses (findIdentityByUserId_unstamped _)) fun _ _ => ?_
  refine Justified.required_bind fun _ _ => stamps_now (fun _ => rfl) fun _ _ =>
    Call.Uses.bind (Call.Uses.perform rfl) fun _ => trivial

/-- Every call stamps its rows with the clock. -/
theorem code_stamps (i : Invocation) (w : RideWorld) :
    Justified (rideSystem cfg) Recorded Eq Stamps i (i.code cfg) w := by
  cases i with
  | create riderId dto uuid =>
      refine Justified.void (Justified.perform_bind fun w₁ _ _ =>
        ⟨⟨rfl, rfl⟩, fun _ _ _ _ => stamps_of_uses ?_⟩)
      exact Call.Uses.bind (Call.Uses.perform rfl) fun _ =>
        Call.Uses.bind (Call.Uses.perform rfl) fun _ => Call.Uses.ofExcept _
  | cancel id requester reason => exact Justified.void (cancel_stamps id requester reason)
  | start tripId driverUserId => exact Justified.void (start_stamps tripId driverUserId)
  | complete tripId driverUserId => exact Justified.void (complete_stamps tripId driverUserId)
  | submitOffer driverUserId rideRequestId offeredFare uuid =>
      exact stamps_of_uses (Call.Uses.void (OffersService.submitOffer_uses (fun _ => rfl)
        (fun _ => rfl) (fun _ _ _ _ => rfl) (fun _ => rfl) (fun _ => rfl) (fun _ => rfl)
        (fun _ _ => rfl) _ _ _ _))
  | acceptOffer riderId offerId uuid =>
      exact stamps_of_uses (Call.Uses.void (OffersService.acceptOffer_uses (fun _ => rfl)
        (fun _ _ => rfl) (fun _ => rfl) (fun _ => rfl) (fun _ => rfl) (fun _ _ _ _ => rfl) _ _ _))
  | process job => exact stamps_of_uses (process_unstamped job)
  | runJob jobId =>
      exact stamps_of_uses (OfferExpiryProcessor.runJob_uses (fun _ => rfl) (fun _ => rfl)
        (fun _ => rfl) process_unstamped jobId)
  | setOnlineStatus userId isOnline =>
      exact stamps_of_uses (Call.Uses.void (DriversService.setOnlineStatus_uses
        findIdentityByUserId_unstamped (fun _ _ => rfl) (fun _ _ _ _ => rfl) _ _))
  | goOffline userId =>
      exact stamps_of_uses (DriversService.goOffline_uses findIdentityByUserId_unstamped
        (fun _ => rfl) (fun _ _ _ _ => rfl) (fun _ => rfl) userId)
  | locationUpdate userId lat lng =>
      refine Justified.perform_bind fun w₁ _ _ => ⟨trivial, fun b s _ n => ?_⟩
      cases b with
      | false => trivial
      | true =>
          refine Justified.recover (Justified.bind (updateLocation_stamps userId lat lng)
            fun _ _ => stamps_of_uses ?_) fun _ _ => trivial
          refine Call.Uses.bind (Call.Uses.perform rfl) fun rider => ?_
          cases rider with
          | none => trivial
          | some rider => exact Call.Uses.perform rfl
  | verifyDriver userId driverApplicationId uuid =>
      exact fun w _ _ => ⟨Or.inl ⟨rfl, rfl, rfl⟩, fun _ _ _ _ => trivial, fun _ => trivial⟩
  | evictIdentity userId => exact stamps_of_uses (Call.Uses.perform rfl)
  | elapse duration => exact stamps_of_uses (Call.Uses.perform rfl)

end Stamps

section Keep
variable {clock : Millis} {db db' : RideTables}

theorem RideTables.Timeline.empty (clock : Millis) : RideTables.empty.Timeline clock := by
  constructor <;> simp [RideTables.empty]

/-- Rewritten rows are on time if each new row is, and a trip still shares the
reason of its request. -/
theorem RideTables.Timeline.rewrite (h : db.Timeline clock) {f : RideRequest → RideRequest}
    {g : Trip → Trip} (hp : db'.driverProfiles = db.driverProfiles)
    (hr : db.rideRequests.Rewrites f db'.rideRequests) (ht : db.trips.Rewrites g db'.trips)
    (hid : ∀ r, (f r).id = r.id) (hreq : ∀ t, (g t).rideRequestId = t.rideRequestId)
    (hf : ∀ r ∈ db.rideRequests, (f r).Timely clock) (hg : ∀ t ∈ db.trips, (g t).Timely clock)
    (hfg : ∀ t ∈ db.trips, ∀ r ∈ db.rideRequests, r.id = t.rideRequestId →
      t.cancelReason = r.cancelReason → (g t).cancelReason = (f r).cancelReason) :
    db'.Timeline clock := by
  refine ⟨hp ▸ h.profiles, fun r' hr' => ?_, fun t' ht' => ?_, fun t' ht' r' hr' hrt => ?_⟩
  · obtain ⟨r, hr, rfl⟩ := (hr r').mp hr'
    exact hf r hr
  · obtain ⟨t, ht, rfl⟩ := (ht t').mp ht'
    exact hg t ht
  · obtain ⟨r, hr, rfl⟩ := (hr r').mp hr'
    obtain ⟨t, ht, rfl⟩ := (ht t').mp ht'
    rw [hid, hreq] at hrt
    exact hfg t ht r hr hrt (h.reasons t ht r hr hrt)

/-- A request that is not cancelled, and moves to such a status, is on time. -/
private theorem RideRequest.Timely.live {r r' : RideRequest} (h : r.Timely clock)
    (hst : r.status ≠ .cancelled) (hst' : r'.status ≠ .cancelled)
    (hat : r'.cancelledAt = r.cancelledAt) (hwhy : r'.cancelReason = r.cancelReason) :
    r'.Timely clock := by
  rw [RideRequest.Timely, if_neg hst] at h
  rw [RideRequest.Timely, if_neg hst', hat, hwhy]
  exact h

/-- The status of the request of a trip that a guard has found. -/
private theorem RideTables.Coherent.request_status (h : db.Coherent) {t : Trip}
    (ht : t ∈ db.trips) {r : RideRequest} (hr : r ∈ db.rideRequests)
    (hid : r.id = t.rideRequestId) : r.status = t.status.onRequest := by
  obtain ⟨q, hq, hqid, -, hst⟩ := h.trip_request t ht
  rwa [RideRequest.eq_of_id hr hq (hid.trans hqid.symm)]

theorem RideTables.Timeline.create (h : db.Timeline clock) (hc : db.Coherent) {r : RideRequest}
    (he : RequestCreated r db db') (hst : r.status = .pending)
    (hr : r.cancelledAt = none ∧ r.cancelReason = none) : db'.Timeline clock := by
  refine ⟨he.profiles ▸ h.profiles, fun q hq => ?_, he.trips ▸ h.trips, fun t ht q hq hid => ?_⟩
  · rcases (he.requests q).mp hq with hq | rfl
    · exact h.requests q hq
    · rw [RideRequest.Timely, if_neg (by rw [hst]; decide)]
      exact hr
  · rw [he.trips] at ht
    rcases (he.requests q).mp hq with hq | rfl
    · exact h.reasons t ht q hq hid
    · obtain ⟨x, hx, hxid, -⟩ := hc.trip_request t ht
      exact absurd (hxid.trans hid.symm) (he.fresh x hx)

theorem RideTables.Timeline.accept (h : db.Timeline clock) {a : Acceptance} {t : Trip}
    {i : Invocation} (he : a.Effect db t db') (hread : AcceptRead a i db) :
    db'.Timeline clock := by
  obtain ⟨r₀, hr₀, hr₀id, -, hr₀st⟩ := hread.request
  have hpend {r : RideRequest} (hr : r ∈ db.rideRequests) (hid : r.id = a.rideRequestId) :
      r.status = .pending := by
    rwa [RideRequest.eq_of_id hr hr₀ (hid.trans hr₀id.symm)]
  have hreason (r : RideRequest) : (a.onRequest r).cancelReason = r.cancelReason := by
    unfold Acceptance.onRequest
    split <;> rfl
  refine ⟨he.profiles ▸ h.profiles, fun r' hr' => ?_, fun t' ht' => ?_, fun t' ht' r' hr' hid => ?_⟩
  · obtain ⟨r, hr, rfl⟩ := (he.requests r').mp hr'
    by_cases hid : r.id = a.rideRequestId
    · refine (h.requests r hr).live (by rw [hpend hr hid]; decide) ?_ ?_ (hreason r)
      · rw [a.onRequest_status, if_pos hid]
        decide
      · rw [Acceptance.onRequest, if_pos hid]
    · rw [Acceptance.onRequest, if_neg hid]
      exact h.requests r hr
  · rcases (he.trips t').mp ht' with ht' | rfl
    · exact h.trips t' ht'
    · exact ⟨rfl, rfl⟩
  · obtain ⟨r, hr, rfl⟩ := (he.requests r').mp hr'
    rw [(RideRequest.identity_eq.mp (a.onRequest_identity r)).1] at hid
    rw [hreason]
    rcases (he.trips t').mp ht' with ht' | rfl
    · exact h.reasons t' ht' r hr hid
    · have hr := h.requests r hr
      rw [RideRequest.Timely, if_neg] at hr
      · exact hr.2.symm
      · rw [hpend ‹_› hid]
        decide

/-- A trip in a guard's status has a request in that status, which is not cancelled. -/
private theorem moved_requests (h : db.Timeline clock) (hc : db.Coherent) {u : TripUpdate}
    {status : RideRequestStatus} (hstatus : status ≠ .cancelled) {t : Trip} (ht : t ∈ db.trips)
    (hreq : t.rideRequestId = u.rideRequestId) (hst : t.status.onRequest ≠ .cancelled) :
    ∀ r ∈ db.rideRequests, (u.onRequest status r).Timely clock := by
  intro r hr
  by_cases hid : r.id = u.rideRequestId
  · refine (h.requests r hr).live ?_ ?_ ?_ ?_
    · rwa [hc.request_status ht hr (hid.trans hreq.symm)]
    · rwa [u.onRequest_status, if_pos hid]
    · rw [TripUpdate.onRequest, if_pos hid]
    · rw [TripUpdate.onRequest, if_pos hid]
  · rw [TripUpdate.onRequest, if_neg hid]
    exact h.requests r hr

/-- A move of a trip along its life keeps the tables on time when the moved trip is. -/
theorem RideTables.Timeline.move (h : db.Timeline clock) (hc : db.Coherent) {u : TripUpdate}
    {onTrip : Trip → Trip} {status : RideRequestStatus} {t x : Trip}
    (he : u.Effect onTrip status db t db') (hstatus : status ≠ .cancelled)
    (hx : x ∈ db.trips) (hreq : x.rideRequestId = u.rideRequestId)
    (hst : x.status.onRequest ≠ .cancelled) (hterms : ∀ t, (onTrip t).terms = t.terms)
    (hreason : ∀ t, (onTrip t).cancelReason = t.cancelReason)
    (hmoved : ∀ t ∈ db.trips, (onTrip t).Timely clock) : db'.Timeline clock := by
  refine h.rewrite he.profiles he.requests he.trips (fun r => ?_) (fun t => ?_)
    (moved_requests h hc hstatus hx hreq hst) hmoved fun t _ r _ _ hwhy => ?_
  · exact (RideRequest.identity_eq.mp (u.onRequest_identity status r)).1
  · exact (Trip.terms_eq.mp (hterms t)).2.1
  · rw [hreason, hwhy]
    unfold TripUpdate.onRequest
    split <;> rfl

theorem RideTables.Timeline.cancel (h : db.Timeline clock) (hc : db.Coherent) {c : Cancellation}
    {r₀ : RideRequest} {i : Invocation} (he : c.Effect db r₀ db') (hread : CancelRead c i db)
    (hat : c.cancelledAt ≤ clock) : db'.Timeline clock := by
  obtain ⟨q, hq, hqid, hqst, -⟩ := hread.request
  have htrip {t : Trip} (ht : t ∈ db.trips) (hid : c.tripId = some t.id) :
      t.rideRequestId = c.rideRequestId := by
    obtain ⟨x, hx, hxid, hxreq⟩ := hread.trip t.id hid
    rwa [Trip.eq_of_id ht hx hxid.symm]
  refine h.rewrite he.profiles he.requests he.trips (fun r => ?_) (fun t => ?_)
    (fun r hr => ?_) (fun t ht => ?_) fun t ht r hr hid hwhy => ?_
  · exact (RideRequest.identity_eq.mp (c.onRequest_identity r)).1
  · exact (Trip.terms_eq.mp (c.onTrip_terms t)).2.1
  · by_cases hid : r.id = c.rideRequestId
    · rw [RideRequest.Timely, c.onRequest_status, if_pos hid, if_pos rfl]
      exact ⟨c.cancelledAt, hat, by rw [Cancellation.onRequest, if_pos hid]⟩
    · rw [Cancellation.onRequest, if_neg hid]
      exact h.requests r hr
  · by_cases hid : c.tripId = some t.id
    · have hst := hc.request_status ht hq (hqid.trans (htrip ht hid).symm)
      have hmatched : t.status = .matched := by
        rw [hst] at hqst
        cases hts : t.status <;> simp [hts, TripStatus.onRequest] at hqst ⊢
      have ht := h.trips t ht
      rw [Trip.Timely, hmatched] at ht
      rw [Cancellation.onTrip, if_pos hid]
      exact ht
    · rw [Cancellation.onTrip, if_neg hid]
      exact h.trips t ht
  · by_cases hrid : r.id = c.rideRequestId
    · cases htid : c.tripId with
      | none => exact absurd (hid.symm.trans hrid) (hread.noTrip htid t ht)
      | some id =>
          obtain ⟨x, hx, hxid, hxreq⟩ := hread.trip id htid
          obtain rfl := Trip.eq_of_rideRequestId ht hx (hid.symm.trans (hrid.trans hxreq.symm))
          rw [Cancellation.onRequest, if_pos hrid, Cancellation.onTrip,
            if_pos (htid.trans (congrArg _ hxid.symm)), hwhy]
    · have hne : c.tripId ≠ some t.id := fun hsome => hrid (hid.trans (htrip ht hsome))
      rw [Cancellation.onRequest, if_neg hrid, Cancellation.onTrip, if_neg hne]
      exact hwhy

end Keep

section Commit
variable {cfg : Config} {w : RideWorld} {i : Invocation} {o : Stmt} {b : o.Res} {s : Backend}

/-- What is written about drivers is on time. -/
private theorem profiles_commit (h : (tablesOf w).Timeline w.shared.clock) (hJ : Stamps w i o)
    (hx : Backend.exec cfg o w.shared = .ok (b, s)) :
    ∀ p ∈ s.tables.driverProfiles, p.Timely w.shared.clock := by
  have hwrote := Backend.exec_wrote hx
  generalize htb : s.tables = db' at hwrote
  cases hwrote with
  | nothing ho => exact h.profiles
  | createDriverProfile he =>
      intro p hp
      rcases (he.profiles p).mp hp with hp | rfl
      · exact h.profiles p hp
      · exact hJ
  | updateDriverProfile ho he hf =>
      subst htb
      clear he hf
      cases o with
      | setOnline userId isOnline =>
          obtain ⟨he, -⟩ := RideTables.setOnline_effect
            (Backend.onTables_ok (fun db => db.setOnline userId isOnline) hx).1
          intro p' hp'
          obtain ⟨p, hp, rfl⟩ := (he.profiles p').mp hp'
          unfold setOnlineRow
          split
          · exact h.profiles p hp
          · exact h.profiles p hp
      | setLocation userId lat lng now =>
          have he := RideTables.setLocation_effect
            (Backend.onTables_ok (fun db => db.setLocation userId lat lng now) hx).1
          intro p' hp'
          obtain ⟨p, hp, rfl⟩ := (he.profiles p').mp hp'
          unfold setLocationRow
          split
          · exact Or.inr ⟨lat, lng, now, Nat.le_of_eq hJ, rfl, rfl, rfl⟩
          · exact h.profiles p hp
      | _ => cases ho
  | createRideRequest he => exact he.profiles ▸ h.profiles
  | upsertOffer he => exact he.profiles ▸ h.profiles
  | acceptBatch he => exact he.profiles ▸ h.profiles
  | expireOffer he => exact he.profiles ▸ h.profiles
  | expireDriverOffers he => exact he.profiles ▸ h.profiles
  | cancelBatch he => exact he.profiles ▸ h.profiles
  | startBatch he => exact he.profiles ▸ h.profiles
  | completeBatch he => exact he.profiles ▸ h.profiles

/-- The moved trip of a start or a completion is on time if its stamp is, the
others are as they were. -/
private theorem moved_timely {clock : Millis} {db : RideTables} {onTrip : Trip → Trip}
    {tripId : Id} {x : Trip} (h : db.Timeline clock) (hx : x ∈ db.trips) (hxid : x.id = tripId)
    (hother : ∀ t, t.id ≠ tripId → onTrip t = t) (hmoved : (onTrip x).Timely clock) :
    ∀ t ∈ db.trips, (onTrip t).Timely clock := by
  intro t ht
  by_cases hid : t.id = tripId
  · rwa [Trip.eq_of_id ht hx (hid.trans hxid.symm)]
  · rw [hother t hid]
    exact h.trips t ht

/-- A write that is decided on the rows as they are keeps the tables on time. -/
theorem timeline_commit (hc : (tablesOf w).Coherent) (h : (tablesOf w).Timeline w.shared.clock)
    (hI : IssuedInTurn w i o) (hJ : Stamps w i o)
    (hx : Backend.exec cfg o w.shared = .ok (b, s)) : s.tables.Timeline s.clock := by
  refine RideTables.Timeline.mono (Backend.exec_clock_le hx) ?_
  have hprofiles := profiles_commit h hJ hx
  have hwrote := Backend.exec_wrote hx
  generalize s.tables = db' at hwrote hprofiles
  cases hwrote with
  | nothing ho => exact h
  | createDriverProfile he =>
      exact ⟨hprofiles, he.requests ▸ h.requests, he.trips ▸ h.trips,
        he.requests ▸ he.trips ▸ h.reasons⟩
  | updateDriverProfile ho he hf =>
      exact ⟨hprofiles, he.requests ▸ h.requests, he.trips ▸ h.trips,
        he.requests ▸ he.trips ▸ h.reasons⟩
  | createRideRequest he => exact h.create hc he hI.1 hJ
  | upsertOffer he =>
      exact ⟨hprofiles, he.requests ▸ h.requests, he.trips ▸ h.trips,
        he.requests ▸ he.trips ▸ h.reasons⟩
  | acceptBatch he => exact h.accept he (Seen.inTurn hI)
  | expireOffer he =>
      exact ⟨hprofiles, he.requests ▸ h.requests, he.trips ▸ h.trips,
        he.requests ▸ he.trips ▸ h.reasons⟩
  | expireDriverOffers he =>
      exact ⟨hprofiles, he.requests ▸ h.requests, he.trips ▸ h.trips,
        he.requests ▸ he.trips ▸ h.reasons⟩
  | cancelBatch he => exact h.cancel hc he (Seen.inTurn hI) (Nat.le_of_eq hJ)
  | @startBatch u _ _ _ he =>
      obtain ⟨x, hx, hxid, hreq, hst, -⟩ := Seen.inTurn hI
      refine h.move hc he (by decide) hx hreq (by rw [hst]; decide) u.startTrip_terms
        (fun t => by unfold TripUpdate.startTrip; split <;> rfl) ?_
      refine moved_timely h hx hxid (fun t hid => if_neg hid) ?_
      have hx := h.trips x hx
      rw [Trip.Timely, hst] at hx
      rw [TripUpdate.startTrip, if_pos hxid]
      exact ⟨⟨u.now, Nat.le_of_eq hJ, rfl⟩, hx.2⟩
  | @completeBatch u _ _ _ he =>
      obtain ⟨x, hx, hxid, hreq, hst, -⟩ := Seen.inTurn hI
      refine h.move hc he (by decide) hx hreq (by rw [hst]; decide) u.completeTrip_terms
        (fun t => by unfold TripUpdate.completeTrip; split <;> rfl) ?_
      refine moved_timely h hx hxid (fun t hid => if_neg hid) ?_
      have hx := h.trips x hx
      rw [Trip.Timely, hst] at hx
      obtain ⟨⟨started, hstarted, hat⟩, -⟩ := hx
      rw [TripUpdate.completeTrip, if_pos hxid]
      -- The clock has not run back since the trip was started.
      have hle : started ≤ u.now := Nat.le_trans hstarted (Nat.le_of_eq hJ.symm)
      exact ⟨started, u.now, hle, Nat.le_of_eq hJ, hat, rfl⟩

end Commit

/-- After any number of whole calls, however many of their statements fail, no
stamp lies ahead of the clock: a trip that is under way has its start, one that
is completed its start and then its end, others neither; only a cancelled request
has a time and may have a reason, which its trip shares. -/
theorem timeline_served (cfg : Config) (calls : List (Invocation × List Bool)) :
    (tablesOf (ridePool.serveAll (rideSystem cfg) calls).world).Timeline
      (ridePool.serveAll (rideSystem cfg) calls).world.shared.clock := by
  let K : RideWorld → Prop := fun w =>
    (tablesOf w).Coherent ∧ (tablesOf w).Timeline w.shared.clock
  refine (turn_served (K := K) code_stamps (fun {w n i o b s} _ hw hI hJ hx => ?_) recorded_init
    ⟨RideTables.Coherent.empty, RideTables.Timeline.empty _⟩ calls).2.2
  exact ⟨coherent_commit hw.1 hI.sameTables hx, timeline_commit hw.1 hw.2 hI hJ hx⟩

end Reedr
