import Reedr.Ride.ExpiryQueue
import Reedr.Ride.History
import Reedr.Ride.Refusals

/-!
# Who may write which rows

Every service tests on rows it has read whether the caller is entitled to the
write. The columns it tests are never written again, so the caller is still
entitled when the write commits, whatever other calls did in between.
-/

namespace Reedr
open Relational Interleaving

/-- The invocation executes the job: it processes it, or is the worker taking it. -/
def Invocation.Runs (i : Invocation) (job : OfferExpiryJob) : Prop :=
  i = .process job ∨ i = .runJob job.storedAs

/-- Outside one ride request the negotiation is as it was. -/
structure RideTables.OnlyRequest (id : Id) (db db' : RideTables) : Prop where
  requests : Table.SameBut (fun r : RideRequest => r.id = id) db.rideRequests db'.rideRequests
  offers : Table.SameBut (fun o : RideOffer => o.rideRequestId = id) db.rideOffers db'.rideOffers
  trips : Table.SameBut (fun t : Trip => t.rideRequestId = id) db.trips db'.trips

section Entitled
variable (i : Invocation) (db : RideTables)

/-- Whose call may bring a ride request into a status: the rider's, to create,
match or cancel it, or that of its trip's driver, to move or cancel the ride. -/
def RideRequest.MayBecome (r : RideRequest) : RideRequestStatus → Prop
  | .pending => ∃ dto, i = .create r.riderId dto r.id
  | .matched => ∃ offerId uuid, i = .acceptOffer r.riderId offerId uuid
  | .inProgress => ∃ t ∈ db.trips, t.rideRequestId = r.id ∧ i = .start t.id t.driverId
  | .completed => ∃ t ∈ db.trips, t.rideRequestId = r.id ∧ i = .complete t.id t.driverId
  | .cancelled => ∃ requester reason, i = .cancel r.id requester reason ∧
      (requester = r.riderId ∨ ∃ t ∈ db.trips, t.rideRequestId = r.id ∧ requester = t.driverId)

/-- The same for its trip. -/
def Trip.MayBecome (t : Trip) : TripStatus → Prop
  | .matched => ∃ offerId, i = .acceptOffer t.riderId offerId t.id
  | .started => i = .start t.id t.driverId
  | .completed => i = .complete t.id t.driverId
  | .cancelled => ∃ requester reason, i = .cancel t.rideRequestId requester reason ∧
      (requester = t.riderId ∨ requester = t.driverId)

/-- The call is the submission of this offer at its fare, by its own driver. -/
def RideOffer.SubmittedBy (o : RideOffer) : Prop :=
  ∃ p ∈ db.driverProfiles, p.id = o.driverId ∧
    ∃ uuid, i = .submitOffer p.userId o.rideRequestId o.offeredFare uuid

/-- The same for an offer; it may expire without anybody's call. -/
def RideOffer.MayBecome (o : RideOffer) : OfferStatus → Prop
  | .pending => o.SubmittedBy i db
  | .accepted => ∃ r ∈ db.rideRequests, r.id = o.rideRequestId ∧
      ∃ uuid, i = .acceptOffer r.riderId o.id uuid
  | .rejected => False
  | .expired => True

end Entitled

/-- The terms of a trip decide who may move it. -/
theorem Trip.MayBecome.congr {i : Invocation} {t t' : Trip} {status : TripStatus}
    (h : t.MayBecome i status) (hterms : t.terms = t'.terms) : t'.MayBecome i status := by
  obtain ⟨hid, hreq, hdriver, hrider, -⟩ := Trip.terms_eq.mp hterms
  cases status with
  | matched => rwa [MayBecome, ← hid, ← hrider]
  | started => rwa [MayBecome, ← hid, ← hdriver]
  | completed => rwa [MayBecome, ← hid, ← hdriver]
  | cancelled => rwa [MayBecome, ← hreq, ← hdriver, ← hrider]

section Becomes
variable (db db' : RideTables)

/-- The request is in a status that it was not in before. -/
def RequestBecomes (status : RideRequestStatus) : RideRequest → Prop :=
  Table.Enters (fun r => r.id) (fun r => r.status = status) db.rideRequests db'.rideRequests

def TripBecomes (status : TripStatus) : Trip → Prop :=
  Table.Enters (fun t => t.id) (fun t => t.status = status) db.trips db'.trips

def OfferBecomes (status : OfferStatus) : RideOffer → Prop :=
  Table.Enters (fun o => o.id) (fun o => o.status = status) db.rideOffers db'.rideOffers

/-- The offer is at a fare that it was not at before. -/
def OfferPriced (o : RideOffer) : Prop :=
  Table.Enters (fun o => o.id) (fun q => q.offeredFare = o.offeredFare) db.rideOffers
    db'.rideOffers o

end Becomes

/-- What a call changes, it changes on one ride request, and it is the call of
somebody entitled to the change. The clean-up after a disconnect is the only one
to work across requests, and all it does is to expire offers of its driver. -/
structure Authorized (i : Invocation) (db db' : RideTables) : Prop where
  scope : (∃ id, db.OnlyRequest id db') ∨ ∃ driverProfileId,
    i.Runs (.expireDriverPendingOffers driverProfileId) ∧
      OfferEffect (expireDriverOfferRow driverProfileId) db db'
  request : ∀ status r, RequestBecomes db db' status r → r.MayBecome i db status
  trip : ∀ status t, TripBecomes db db' status t → t.MayBecome i status
  offer : ∀ status o, OfferBecomes db db' status o → o.MayBecome i db status
  fare : ∀ o, OfferPriced db db' o → o.SubmittedBy i db

section Same
variable {db db' : RideTables}

private theorem request_same {status : RideRequestStatus} {r : RideRequest}
    (hr : db'.rideRequests = db.rideRequests) : ¬ RequestBecomes db db' status r := by
  rw [RequestBecomes, hr]
  exact Table.Enters.ne

private theorem trip_same {status : TripStatus} {t : Trip} (ht : db'.trips = db.trips) :
    ¬ TripBecomes db db' status t := by
  rw [TripBecomes, ht]
  exact Table.Enters.ne

private theorem offer_same {status : OfferStatus} {o : RideOffer}
    (ho : db'.rideOffers = db.rideOffers) : ¬ OfferBecomes db db' status o := by
  rw [OfferBecomes, ho]
  exact Table.Enters.ne

private theorem fare_same {o : RideOffer} (ho : db'.rideOffers = db.rideOffers) :
    ¬ OfferPriced db db' o := by
  rw [OfferPriced, ho]
  exact Table.Enters.ne

end Same

section Rewrites
variable {db db' : RideTables}

/-- An update of one request's status is all that requests become by it. -/
private theorem request_rewritten {f : RideRequest → RideRequest} {id : Id}
    {st status : RideRequestStatus} {r : RideRequest}
    (hf : db.rideRequests.Rewrites f db'.rideRequests) (hid : ∀ r, (f r).identity = r.identity)
    (hst : ∀ r, (f r).status = if r.id = id then st else r.status)
    (h : RequestBecomes db db' status r) :
    status = st ∧ r.id = id ∧ ∃ x ∈ db.rideRequests, x.identity = r.identity := by
  obtain ⟨x, hx, rfl, hnow, hbefore⟩ :=
    Table.Enters.of_rewrites h hf fun r => (RideRequest.identity_eq.mp (hid r)).1
  rw [hst] at hnow
  split at hnow
  · next hxid => exact ⟨hnow.symm, (RideRequest.identity_eq.mp (hid x)).1.trans hxid, x, hx,
      (hid x).symm⟩
  · exact absurd hnow hbefore

private theorem trip_rewritten {f : Trip → Trip} {p : Trip → Prop} [DecidablePred p]
    {st status : TripStatus} {t : Trip}
    (hf : db.trips.Rewrites f db'.trips) (hterms : ∀ t, (f t).terms = t.terms)
    (hst : ∀ t, (f t).status = if p t then st else t.status)
    (h : TripBecomes db db' status t) :
    status = st ∧ ∃ x ∈ db.trips, p x ∧ x.terms = t.terms := by
  obtain ⟨x, hx, rfl, hnow, hbefore⟩ :=
    Table.Enters.of_rewrites h hf fun t => (Trip.terms_eq.mp (hterms t)).1
  rw [hst] at hnow
  split at hnow
  · next hp => exact ⟨hnow.symm, x, hx, hp, (hterms x).symm⟩
  · exact absurd hnow hbefore

/-- No update but a submission sets a fare. -/
private theorem fare_kept {f : RideOffer → RideOffer} {o : RideOffer}
    (hf : db.rideOffers.Rewrites f db'.rideOffers) (hid : ∀ o, (f o).identity = o.identity)
    (hfare : ∀ o, (f o).offeredFare = o.offeredFare) : ¬ OfferPriced db db' o := by
  intro h
  obtain ⟨x, hx, rfl, hnow, hbefore⟩ :=
    Table.Enters.of_rewrites h hf fun o => (RideOffer.identity_eq.mp (hid o)).1
  exact hbefore (hfare x).symm

/-- Where offers only expire, they become nothing else. -/
private theorem offer_expired {p : RideOffer → Prop} [DecidablePred p]
    {status : OfferStatus} {o : RideOffer}
    (hf : db.rideOffers.Rewrites (fun o => if p o then { o with status := .expired } else o)
      db'.rideOffers) (h : OfferBecomes db db' status o) : status = .expired := by
  obtain ⟨x, hx, rfl, hnow, hbefore⟩ := Table.Enters.of_rewrites h hf fun o => by split <;> rfl
  by_cases hp : p x
  · rw [if_pos hp] at hnow
    exact hnow.symm
  · rw [if_neg hp] at hnow
    exact absurd hnow hbefore

end Rewrites

namespace Authorized
variable {i : Invocation} {db db' : RideTables}

/-- Statements on other tables. -/
theorem unchanged (hr : db'.rideRequests = db.rideRequests) (ho : db'.rideOffers = db.rideOffers)
    (ht : db'.trips = db.trips) : Authorized i db db' := by
  constructor
  · exact Or.inl ⟨"", hr ▸ .refl _, ho ▸ .refl _, ht ▸ .refl _⟩
  · exact fun _ _ h => absurd h (request_same hr)
  · exact fun _ _ h => absurd h (trip_same ht)
  · exact fun _ _ h => absurd h (offer_same ho)
  · exact fun _ h => absurd h (fare_same ho)

/-- Statements that write offers only, and let them do nothing but expire. -/
private theorem expired {p : RideOffer → Prop} [DecidablePred p]
    (he : OfferEffect (fun o => if p o then { o with status := .expired } else o) db db')
    (hscope : (∃ id, db.OnlyRequest id db') ∨ ∃ driverProfileId,
      i.Runs (.expireDriverPendingOffers driverProfileId) ∧
        OfferEffect (expireDriverOfferRow driverProfileId) db db') : Authorized i db db' := by
  constructor
  · exact hscope
  · exact fun _ _ h => absurd h (request_same he.requests)
  · exact fun _ _ h => absurd h (trip_same he.trips)
  · intro status o h
    rw [offer_expired he.offers h]
    trivial
  · intro o h
    refine absurd h (fare_kept he.offers (fun o => ?_) fun o => ?_)
    · split <;> rfl
    · split <;> rfl

private theorem expireOffer {offerId : Id}
    (he : OfferEffect (expireOfferRow offerId) db db')
    (hread : ∃ o ∈ db.rideOffers, o.id = offerId) : Authorized i db db' := by
  obtain ⟨o, ho, hid⟩ := hread
  apply expired he
  refine Or.inl ⟨o.rideRequestId, he.requests ▸ .refl _, ?_, he.trips ▸ .refl _⟩
  apply Table.SameBut.of_rewrites he.offers
  · intro x _ hx
    rwa [(RideOffer.identity_eq.mp (expireOfferRow_continues offerId x).identity).2.1]
  · intro x hx hne
    rw [expireOfferRow, if_neg]
    intro hxid
    exact hne (congrArg _ (RideOffer.eq_of_id hx ho (hxid.trans hid.symm)))

private theorem createRideRequest {r : RideRequest} (he : RequestCreated r db db')
    (hread : r.status = .pending ∧ ∃ dto, i = .create r.riderId dto r.id) :
    Authorized i db db' := by
  constructor
  · exact Or.inl ⟨r.id, .of_extends he.requests rfl, he.offers ▸ .refl _, he.trips ▸ .refl _⟩
  · intro status x h
    obtain rfl := Table.Enters.of_extends h he.requests
    obtain rfl : x.status = status := h.now
    rw [hread.1]
    exact hread.2
  · exact fun _ _ h => absurd h (trip_same he.trips)
  · exact fun _ _ h => absurd h (offer_same he.offers)
  · exact fun _ h => absurd h (fare_same he.offers)

private theorem upsertOffer {rideRequestId driverId uuid : Id} {fare : Fare} {offer : RideOffer}
    (he : UpsertEffect rideRequestId driverId fare uuid db offer db')
    (hread : ∃ p ∈ db.driverProfiles, p.id = driverId ∧
      i = .submitOffer p.userId rideRequestId fare uuid) : Authorized i db db' := by
  have hoffer : offer.SubmittedBy i db := by
    obtain ⟨p, hp, hid, hinv⟩ := hread
    refine ⟨p, hp, hid.trans he.result_on.2.symm, uuid, ?_⟩
    rw [hinv, he.result_on.1, he.result_fare]
  constructor
  · refine Or.inl ⟨rideRequestId, he.requests ▸ .refl _, fun x hx => ?_, he.trips ▸ .refl _⟩
    constructor
    · intro hmem
      rcases he.split x hmem with ⟨hold, -⟩ | rfl
      · exact hold
      · exact absurd he.result_on.1 hx
    · exact fun hmem => he.others x hmem fun hon => hx hon.1
  · exact fun _ _ h => absurd h (request_same he.requests)
  · exact fun _ _ h => absurd h (trip_same he.trips)
  · intro status x h
    rcases he.split x h.mem with ⟨hold, -⟩ | rfl
    · exact absurd h.now (h.before x hold rfl)
    · obtain rfl : x.status = status := h.now
      rw [he.result_status]
      exact hoffer
  · intro x h
    rcases he.split x h.mem with ⟨hold, -⟩ | rfl
    · exact absurd rfl (h.before x hold rfl)
    · exact hoffer

private theorem acceptBatch {a : Acceptance} {t : Trip} (he : a.Effect db t db')
    (hinv : i = .acceptOffer a.riderId a.offerId a.tripId)
    (hoffer : ∃ o ∈ db.rideOffers, o.id = a.offerId ∧ o.rideRequestId = a.rideRequestId)
    (hrequest : ∃ r ∈ db.rideRequests, r.id = a.rideRequestId ∧ r.riderId = a.riderId) :
    Authorized i db db' := by
  obtain ⟨o, ho, hoid, horeq⟩ := hoffer
  obtain ⟨r, hr, hrid, hrider⟩ := hrequest
  have hown {x : RideOffer} (hx : x ∈ db.rideOffers) (hid : x.id = a.offerId) :
      x.rideRequestId = a.rideRequestId := by
    rwa [RideOffer.eq_of_id hx ho (hid.trans hoid.symm)]
  constructor
  · refine Or.inl ⟨a.rideRequestId, .of_rewrites he.requests ?_ ?_, .of_rewrites he.offers ?_ ?_,
      .of_extends he.trips rfl⟩
    · intro x _ hx
      rwa [(RideRequest.identity_eq.mp (a.onRequest_identity x)).1]
    · intro x _ hx
      exact if_neg hx
    · intro x _ hx
      rwa [(RideOffer.identity_eq.mp (a.onOffer_identity x)).2.1]
    · intro x hx hne
      rw [Acceptance.onOffer, if_neg fun hid => hne (hown hx hid), if_neg fun hc => hne hc.1]
  · intro status x h
    obtain ⟨rfl, hid, y, hy, hyx⟩ :=
      request_rewritten he.requests a.onRequest_identity a.onRequest_status h
    have hyx := RideRequest.identity_eq.mp hyx
    obtain rfl := RideRequest.eq_of_id hy hr (hyx.1.trans (hid.trans hrid.symm))
    exact ⟨a.offerId, a.tripId, by rw [hinv, ← hyx.2, hrider]⟩
  · intro status x h
    obtain rfl := Table.Enters.of_extends h he.trips
    obtain rfl : TripStatus.matched = status := h.now
    exact ⟨a.offerId, hinv⟩
  · intro status x h
    obtain ⟨y, hy, rfl, hnow, hbefore⟩ := Table.Enters.of_rewrites h he.offers fun o =>
      (RideOffer.identity_eq.mp (a.onOffer_identity o)).1
    have hyx := RideOffer.identity_eq.mp (a.onOffer_identity y)
    by_cases hid : y.id = a.offerId
    · obtain rfl : OfferStatus.accepted = status := by rwa [Acceptance.onOffer, if_pos hid] at hnow
      refine ⟨r, hr, ?_, a.tripId, ?_⟩
      · rw [hrid, hyx.2.1, hown hy hid]
      · rw [hinv, hrider, hyx.1, hid]
    · rw [Acceptance.onOffer, if_neg hid] at hnow
      split at hnow
      · obtain rfl : OfferStatus.expired = status := hnow
        trivial
      · exact absurd hnow hbefore
  · intro x h
    exact absurd h (fare_kept he.offers a.onOffer_identity a.onOffer_fare)

private theorem cancelBatch {c : Cancellation} {r : RideRequest} (he : c.Effect db r db')
    {requester : Id} (hinv : i = .cancel c.rideRequestId requester c.reason)
    (hread : (∃ r ∈ db.rideRequests, r.id = c.rideRequestId ∧ r.riderId = requester) ∨
      ∃ t ∈ db.trips, t.rideRequestId = c.rideRequestId ∧ t.driverId = requester)
    (htrip : ∀ t ∈ db.trips, c.tripId = some t.id → t.rideRequestId = c.rideRequestId)
    (hrider : ∀ t ∈ db.trips, ∃ r ∈ db.rideRequests, r.id = t.rideRequestId ∧
      r.riderId = t.riderId) : Authorized i db db' := by
  constructor
  · refine Or.inl ⟨c.rideRequestId, .of_rewrites he.requests ?_ ?_, .of_rewrites he.offers ?_ ?_,
      .of_rewrites he.trips ?_ ?_⟩
    · intro x _ hx
      rwa [(RideRequest.identity_eq.mp (c.onRequest_identity x)).1]
    · intro x _ hx
      exact if_neg hx
    · intro x _ hx
      rwa [(RideOffer.identity_eq.mp (c.onOffer_continues x).identity).2.1]
    · intro x _ hne
      exact if_neg fun hc => hne hc.1
    · intro x _ hx
      rwa [(Trip.terms_eq.mp (c.onTrip_terms x)).2.1]
    · intro x hx hne
      exact if_neg fun hc => hne (htrip x hx hc)
  · intro status x h
    obtain ⟨rfl, hid, y, hy, hyx⟩ :=
      request_rewritten he.requests c.onRequest_identity c.onRequest_status h
    have hyx := RideRequest.identity_eq.mp hyx
    refine ⟨requester, c.reason, hid ▸ hinv, ?_⟩
    rcases hread with ⟨z, hz, hzid, rfl⟩ | ⟨t, ht, htreq, rfl⟩
    · rw [RideRequest.eq_of_id hz hy (hzid.trans (hid.symm.trans hyx.1.symm))]
      exact Or.inl hyx.2
    · exact Or.inr ⟨t, ht, htreq.trans hid.symm, rfl⟩
  · intro status x h
    obtain ⟨rfl, y, hy, hc, hyx⟩ := trip_rewritten (p := fun t => c.tripId = some t.id) he.trips
      c.onTrip_terms (fun t => by unfold Cancellation.onTrip; split <;> rfl) h
    have hyx := Trip.terms_eq.mp hyx
    have hreq := htrip y hy hc
    refine ⟨requester, c.reason, by rw [hinv, ← hyx.2.1, hreq], ?_⟩
    rcases hread with ⟨z, hz, hzid, rfl⟩ | ⟨t, ht, htreq, rfl⟩
    · obtain ⟨q, hq, hqid, hqr⟩ := hrider y hy
      rw [RideRequest.eq_of_id hz hq (hzid.trans (hreq.symm.trans hqid.symm))]
      exact Or.inl (hqr.trans hyx.2.2.2.1)
    · rw [Trip.eq_of_rideRequestId ht hy (htreq.trans hreq.symm)]
      exact Or.inr hyx.2.2.1
  · intro status x h
    rw [offer_expired he.offers h]
    trivial
  · intro x h
    exact absurd h (fare_kept he.offers (fun o => (c.onOffer_continues o).identity)
      fun o => (c.onOffer_continues o).fare)

/-- `start` and `complete` are calls of the trip's driver and move its request along. -/
private theorem tripUpdate {u : TripUpdate} {t : Trip} {onTrip : Trip → Trip}
    (status : TripStatus) (he : u.Effect onTrip status.onRequest db t db')
    (hterms : ∀ t, (onTrip t).terms = t.terms)
    (hstatus : ∀ t, (onTrip t).status = if t.id = u.tripId then status else t.status)
    (hother : ∀ t, t.id ≠ u.tripId → onTrip t = t)
    (hread : ∃ t ∈ db.trips, t.id = u.tripId ∧ t.rideRequestId = u.rideRequestId ∧
      t.MayBecome i status ∧ ∀ r : RideRequest, r.id = t.rideRequestId →
        r.MayBecome i db status.onRequest) : Authorized i db db' := by
  obtain ⟨x, hx, hxid, hxreq, hxmay, hxrequest⟩ := hread
  have hown {t : Trip} (ht : t ∈ db.trips) (hid : t.id = u.tripId) : t = x :=
    Trip.eq_of_id ht hx (hid.trans hxid.symm)
  constructor
  · refine Or.inl ⟨u.rideRequestId, .of_rewrites he.requests ?_ ?_, he.offers ▸ .refl _,
      .of_rewrites he.trips ?_ ?_⟩
    · intro r _ hr
      rwa [(RideRequest.identity_eq.mp (u.onRequest_identity _ r)).1]
    · intro r _ hr
      exact if_neg hr
    · intro t _ ht
      rwa [(Trip.terms_eq.mp (hterms t)).2.1]
    · intro t ht hne
      exact hother t fun hid => hne (by rw [hown ht hid, hxreq])
  · intro st r h
    obtain ⟨rfl, hid, -⟩ :=
      request_rewritten he.requests (u.onRequest_identity _) (u.onRequest_status _) h
    exact hxrequest r (hid.trans hxreq.symm)
  · intro st t h
    obtain ⟨rfl, y, hy, hyid, hyt⟩ := trip_rewritten he.trips hterms hstatus h
    exact Trip.MayBecome.congr (hown hy hyid ▸ hxmay) hyt
  · exact fun _ _ h => absurd h (offer_same he.offers)
  · exact fun _ h => absurd h (fare_same he.offers)

end Authorized

section Commit
variable {cfg : Config} {w : RideWorld} {n : Nat} {i : Invocation} {o : Stmt} {b : o.Res}
  {s : Backend}

/-- Whoever was entitled to cancel still is. -/
theorem canCancel_of_seen {c : Cancellation} (h : Seen Recorded Evolves w (CancelRead c i)) :
    ∃ requester, i = .cancel c.rideRequestId requester c.reason ∧
      ((∃ r ∈ (tablesOf w).rideRequests, r.id = c.rideRequestId ∧ r.riderId = requester) ∨
        ∃ t ∈ (tablesOf w).trips, t.rideRequestId = c.rideRequestId ∧ t.driverId = requester) := by
  obtain ⟨w₀, -, he, ⟨r, hr, hid, -, requester, hinv, hcan⟩, -, -⟩ := h
  refine ⟨requester, hinv, hcan.imp (fun hrider => ?_) ?_⟩
  · obtain ⟨r', hr', hrr⟩ := he.tables.requests r hr
    have hrr := RideRequest.identity_eq.mp hrr
    exact ⟨r', hr', hrr.1.trans hid, hrr.2.trans hrider⟩
  · rintro ⟨t, ht, hreq, hd⟩
    obtain ⟨t', ht', htt⟩ := he.tables.trips t ht
    have htt := Trip.terms_eq.mp htt
    exact ⟨t', ht', htt.2.1.trans hreq, htt.2.2.1.trans hd⟩

/-- The trip that `start` or `complete` has read is still its driver's. -/
theorem ownTrip_of_seen {u : TripUpdate} {status : TripStatus} {inv : Id → Id → Invocation}
    (h : Seen Recorded Evolves w (TripRead u status inv i)) :
    ∃ t ∈ (tablesOf w).trips, t.id = u.tripId ∧ t.rideRequestId = u.rideRequestId ∧
      i = inv t.id t.driverId := by
  obtain ⟨w₀, -, he, t, ht, hid, hreq, -, hinv⟩ := h
  obtain ⟨t', ht', htt⟩ := he.tables.trips t ht
  have htt := Trip.terms_eq.mp htt
  exact ⟨t', ht', htt.1.trans hid, htt.2.1.trans hreq, by rw [hinv, htt.1, htt.2.2.1]⟩

/-- Which job an expiring statement belongs to; jobs are added under their own ids. -/
def JobIssued (i : Invocation) : Stmt → Prop
  | .expireDriverOffers driverProfileId => i.Runs (.expireDriverPendingOffers driverProfileId)
  | o => o.Labelled

/-- Every statement is issued by a call entitled to what it does. -/
theorem authorized_commit (h : Recorded w) (hJ : Issued Recorded Evolves w i o)
    (hjob : JobIssued i o) (hx : Backend.exec cfg o w.shared = .ok (b, s)) :
    Authorized i (tablesOf w) s.tables := by
  have hwrote := Backend.exec_wrote hx
  generalize htb : s.tables = db' at hwrote
  cases hwrote with
  | nothing ho => exact .unchanged rfl rfl rfl
  | createDriverProfile he => exact .unchanged he.requests he.offers he.trips
  | updateDriverProfile ho he hf => exact .unchanged he.requests he.offers he.trips
  | createRideRequest he => exact .createRideRequest he hJ
  | upsertOffer he =>
      obtain ⟨⟨w₀, -, hw, p, hp, hid, hinv⟩, -⟩ := hJ
      obtain ⟨p', hp', hpp⟩ := hw.tables.profiles p hp
      have hpp := DriverProfile.identity_eq.mp hpp
      exact .upsertOffer he ⟨p', hp', hpp.1.trans hid, by rw [hinv, hpp.2.1]⟩
  | acceptBatch he =>
      have hk := acceptKnown_of_seen hJ
      obtain ⟨o, ho, hoid, hreq, -⟩ := hk.offer
      exact .acceptBatch he hk.inv ⟨o, ho, hoid, hreq⟩ hk.request
  | expireOffer he =>
      obtain ⟨w₀, -, hw, o, ho, hid, -⟩ := hJ
      obtain ⟨o', ho', hoo⟩ := hw.tables.offers o ho
      exact .expireOffer he ⟨o', ho', (RideOffer.identity_eq.mp hoo).1.trans hid⟩
  | expireDriverOffers he => exact .expired he (Or.inr ⟨_, hjob, he⟩)
  | cancelBatch he =>
      obtain ⟨requester, hinv, hread⟩ := canCancel_of_seen hJ
      exact .cancelBatch he hinv hread
        (fun t ht hc => (cancelKnown_of_seen hJ hc ht).mp rfl) h.trip_request
  | @startBatch u _ _ _ he =>
      obtain ⟨t, ht, hid, hreq, hinv⟩ := ownTrip_of_seen hJ
      exact .tripUpdate .started he u.startTrip_terms u.startTrip_status (fun _ hne => if_neg hne)
        ⟨t, ht, hid, hreq, hinv, fun r hr => ⟨t, ht, hr.symm, hinv⟩⟩
  | @completeBatch u _ _ _ he =>
      obtain ⟨t, ht, hid, hreq, hinv⟩ := ownTrip_of_seen hJ
      exact .tripUpdate .completed he u.completeTrip_terms u.completeTrip_status
        (fun _ hne => if_neg hne)
        ⟨t, ht, hid, hreq, hinv, fun r hr => ⟨t, ht, hr.symm, hinv⟩⟩

end Commit

section Calls
variable {cfg : Config} {i : Invocation} {w : RideWorld}

/-- The labels are all a job relies on. -/
def JobsLabelled (w : RideWorld) : Prop := w.shared.jobs.Labelled

/-- Whatever other calls do. -/
def AnyStep (_ _ : RideWorld) : Prop := True

private theorem issued_by_job {α : Type} {c : RideCall α} (h : c.Uses (JobIssued i)) :
    Justified (rideSystem cfg) JobsLabelled AnyStep (fun _ => JobIssued) i c w :=
  Justified.of_uses (fun _ _ ho => ho) h

private theorem process_issuedByJob {job : OfferExpiryJob} (h : i.Runs job) :
    (OfferExpiryProcessor.process job).Uses (JobIssued i) := by
  cases job with
  | expireOffer offerId =>
      apply Call.Uses.bind
      · exact OffersService.expireIfStillPending_uses (fun _ => trivial) (fun _ => trivial) offerId
      · intro result
        cases result with
        | none => trivial
        | some result => exact Call.Uses.perform trivial
  | expireDriverPendingOffers driverProfileId =>
      apply Call.Uses.bind (Call.Uses.perform trivial)
      intro driver
      cases driver with
      | none => trivial
      | some driver =>
          dsimp only
          split
          · trivial
          · exact Call.Uses.perform h

private theorem identity_issuedByJob (userId : Id) :
    (DriversService.findIdentityByUserId userId).Uses (JobIssued i) :=
  DriversService.findIdentityByUserId_uses (fun _ => trivial) (fun _ => trivial)
    (fun _ _ => trivial) userId

theorem code_issuedByJob (i : Invocation) (w : RideWorld) :
    Justified (rideSystem cfg) JobsLabelled AnyStep (fun _ => JobIssued) i (i.code cfg) w := by
  cases i with
  | create riderId dto uuid =>
      exact issued_by_job (Call.Uses.void (RideRequestsService.create_uses (fun _ => trivial)
        (fun _ _ => trivial) (fun _ _ => trivial) riderId dto uuid))
  | cancel id requester reason =>
      exact issued_by_job (Call.Uses.void (RideRequestsService.cancel_uses (fun _ => trivial)
        trivial (fun _ => trivial) (fun _ _ => trivial) id requester reason))
  | submitOffer driverUserId rideRequestId offeredFare uuid =>
      exact issued_by_job (Call.Uses.void (OffersService.submitOffer_uses (fun _ => trivial)
        (fun _ => trivial) (fun _ _ _ _ => trivial) (fun _ => trivial) (fun _ => trivial)
        (fun _ => rfl) (fun _ _ => trivial) driverUserId rideRequestId offeredFare uuid))
  | acceptOffer riderId offerId uuid =>
      exact issued_by_job (Call.Uses.void (OffersService.acceptOffer_uses (fun _ => trivial)
        (fun _ _ => trivial) (fun _ => trivial) (fun _ => trivial) (fun _ => trivial)
        (fun _ _ _ _ => trivial) riderId offerId uuid))
  | start tripId driverUserId =>
      exact issued_by_job (Call.Uses.void (TripsService.start_uses (fun _ => trivial) trivial
        (fun _ => trivial) (fun _ => trivial) tripId driverUserId))
  | complete tripId driverUserId =>
      exact issued_by_job (Call.Uses.void (TripsService.complete_uses (fun _ => trivial) trivial
        (fun _ => trivial) (fun _ => trivial) tripId driverUserId))
  | process job => exact issued_by_job (process_issuedByJob (Or.inl rfl))
  | runJob jobId =>
      refine Justified.perform_bind fun w₁ hI _ => ⟨trivial, fun b s hb n => ?_⟩
      cases b with
      | none => trivial
      | some job =>
          -- The job that is taken is stored under the id it was asked for.
          obtain ⟨hj, hid, -⟩ := JobQueue.due?_some (Backend.exec_takeJob hb).1
          have hruns : (Invocation.runJob jobId).Runs job.data :=
            Or.inr (congrArg _ (hid.symm.trans (hI job hj)))
          apply issued_by_job
          apply Call.Uses.recover
          · exact Call.Uses.bind (process_issuedByJob hruns) fun _ => Call.Uses.perform trivial
          · exact fun _ => Call.Uses.perform trivial
  | setOnlineStatus userId isOnline =>
      exact issued_by_job (Call.Uses.void (DriversService.setOnlineStatus_uses
        identity_issuedByJob (fun _ _ => trivial) (fun _ _ _ _ => trivial) userId isOnline))
  | goOffline userId =>
      exact issued_by_job (DriversService.goOffline_uses identity_issuedByJob
        (fun _ => trivial) (fun _ _ _ _ => trivial) (fun _ => rfl) userId)
  | locationUpdate userId lat lng =>
      exact issued_by_job (RealtimeGateway.onLocationUpdate_uses (fun _ => trivial)
        (DriversService.updateLocation_uses identity_issuedByJob trivial
          (fun _ => trivial) fun _ _ _ => trivial) (fun _ => trivial)
        fun _ _ => trivial)
  | verifyDriver userId driverApplicationId uuid => exact issued_by_job (Call.Uses.perform trivial)
  | evictIdentity userId => exact issued_by_job (Call.Uses.perform trivial)
  | elapse duration => exact issued_by_job (Call.Uses.perform trivial)

/-- The expiry jobs write on behalf of the row they are stored for. -/
theorem job_discipline (cfg : Config) :
    Discipline (rideSystem cfg) JobsLabelled AnyStep fun _ => JobIssued where
  refl _ := trivial
  trans _ _ := trivial
  start i w _ := code_issuedByJob i w
  keep {w n i o b s} hI hJ hx := by
    refine ⟨JobQueue.Labelled.exec hI hx ?_, trivial⟩
    cases o with
    | addJob data delay jobId => exact hJ
    | _ => trivial

end Calls

/-- What holds of the writes of a run: each is made for somebody entitled to
it, and a caller who was turned away has written nothing. -/
structure WritesEntitled (cfg : Config) (ms : List RideMove) : Prop where
  authorized : Along (rideSystem cfg) (fun p m => ∀ n i o b s,
    p.Commits (rideSystem cfg) m n i o b s → Authorized i (tablesOf p.world) s.tables) ridePool ms
  refused : ∀ n i e, i.negotiates = true →
    (ridePool.run (rideSystem cfg) ms).running[n]? = some (i, .fail e) → e.refusal = true →
      ∀ o ∈ executed n (ridePool.run (rideSystem cfg) ms).world.trace, o.writes = false

/-- Under any interleaving every write is entitled, and no refused call writes. -/
theorem writes_entitled (cfg : Config) (ms : List RideMove) : WritesEntitled cfg ms := by
  constructor
  · refine Along.of_invariant
      (G := fun p : RidePool => p.Sound (rideSystem cfg) Recorded Evolves
          (Issued Recorded Evolves) ∧
        p.Sound (rideSystem cfg) JobsLabelled AnyStep fun _ => JobIssued)
      (fun p m hp => ⟨(ride_discipline cfg).sound_step hp.1 m,
        (job_discipline cfg).sound_step hp.2 m⟩)
      (fun p m hp n i o b s hc => ?_)
      ⟨ridePool_sound cfg [], Discipline.sound_init _ fun j hj => absurd hj (Table.not_mem_empty j)⟩
      ms
    exact authorized_commit hp.1.1 ((ride_discipline cfg).justified_of_commits hp.1 hc)
      ((job_discipline cfg).justified_of_commits hp.2 hc) hc.effect
  · intro n i e hi hfail he
    exact Call.ThrowsAfter.of_run (fun i hi => code_refuses cfg i hi) Backend.empty ms hi hfail
      (by simp [he])

end Reedr
