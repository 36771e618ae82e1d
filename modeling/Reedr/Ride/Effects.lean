import Reedr.Ride.Tables

/-!
# What a successful ride statement does to the tables

One lemma per write: which rows it rewrites, which row it adds, and what its
success says about the rows that were there. Later proofs use these effects and
do not unfold a batch again.
-/

namespace Reedr
open Relational

/-- The offer is the one `driverId` has on the request. -/
def RideOffer.isOn (o : RideOffer) (rideRequestId driverId : Id) : Prop :=
  o.rideRequestId = rideRequestId ∧ o.driverId = driverId

namespace Acceptance
variable (a : Acceptance)

/-- The trip an acceptance creates. -/
def trip : Trip :=
  { id := a.tripId, rideRequestId := a.rideRequestId, driverId := a.driverUserId
    riderId := a.riderId, agreedFare := a.offeredFare, status := .matched }

/-- The accepted offer is accepted, every other pending offer on its request expires. -/
def onOffer (o : RideOffer) : RideOffer :=
  if o.id = a.offerId then { o with status := .accepted }
  else if o.rideRequestId = a.rideRequestId ∧ o.status = .pending then
    { o with status := .expired }
  else o

def onRequest (r : RideRequest) : RideRequest :=
  if r.id = a.rideRequestId then { r with status := .matched } else r

/-- The tables before and after a committed acceptance. -/
structure Effect (db : RideTables) (t : Trip) (db' : RideTables) : Prop where
  trip_eq : t = a.trip
  profiles : db'.driverProfiles = db.driverProfiles
  requests : db.rideRequests.Rewrites a.onRequest db'.rideRequests
  offers : db.rideOffers.Rewrites a.onOffer db'.rideOffers
  trips : db.trips.Extends a.trip db'.trips
  offer_mem : ∃ o ∈ db.rideOffers, o.id = a.offerId
  request_mem : ∃ r ∈ db.rideRequests, r.id = a.rideRequestId
  fresh : ∀ x ∈ db.trips, x.rideRequestId ≠ a.rideRequestId

end Acceptance

namespace Cancellation
variable (c : Cancellation)

def onRequest (r : RideRequest) : RideRequest :=
  if r.id = c.rideRequestId then
    { r with
      status := .cancelled
      cancelReason := c.reason <|> r.cancelReason
      cancelledAt := some c.cancelledAt }
  else r

def onOffer (o : RideOffer) : RideOffer :=
  if o.rideRequestId = c.rideRequestId ∧ o.status = .pending then { o with status := .expired }
  else o

def onTrip (t : Trip) : Trip :=
  if c.tripId = some t.id then
    { t with status := .cancelled, cancelReason := c.reason <|> t.cancelReason }
  else t

/-- The tables before and after a committed cancellation. -/
structure Effect (db : RideTables) (r : RideRequest) (db' : RideTables) : Prop where
  profiles : db'.driverProfiles = db.driverProfiles
  requests : db.rideRequests.Rewrites c.onRequest db'.rideRequests
  offers : db.rideOffers.Rewrites c.onOffer db'.rideOffers
  trips : db.trips.Rewrites c.onTrip db'.trips
  result : ∃ r₀ ∈ db.rideRequests, r₀.id = c.rideRequestId ∧ r = c.onRequest r₀

end Cancellation

namespace TripUpdate
variable (u : TripUpdate)

def onRequest (status : RideRequestStatus) (r : RideRequest) : RideRequest :=
  if r.id = u.rideRequestId then { r with status } else r

def startTrip (t : Trip) : Trip :=
  if t.id = u.tripId then { t with status := .started, startedAt := some u.now } else t

def completeTrip (t : Trip) : Trip :=
  if t.id = u.tripId then { t with status := .completed, endedAt := some u.now } else t

/-- The tables before and after a committed `start` or `complete`. -/
structure Effect (onTrip : Trip → Trip) (status : RideRequestStatus) (db : RideTables) (t : Trip)
    (db' : RideTables) : Prop where
  profiles : db'.driverProfiles = db.driverProfiles
  requests : db.rideRequests.Rewrites (u.onRequest status) db'.rideRequests
  offers : db'.rideOffers = db.rideOffers
  trips : db.trips.Rewrites onTrip db'.trips
  result : ∃ t₀ ∈ db.trips, t₀.id = u.tripId ∧ t = onTrip t₀

end TripUpdate

/-- The tables before and after a committed upsert of an offer. -/
structure UpsertEffect (rideRequestId driverId : Id) (offeredFare : Fare) (uuid : Id)
    (db : RideTables) (offer : RideOffer) (db' : RideTables) : Prop where
  profiles : db'.driverProfiles = db.driverProfiles
  requests : db'.rideRequests = db.rideRequests
  trips : db'.trips = db.trips
  persists : db.rideOffers.Persists (fun o => (o.id, o.rideRequestId, o.driverId)) db'.rideOffers
  others : ∀ o ∈ db.rideOffers, ¬ o.isOn rideRequestId driverId → o ∈ db'.rideOffers
  split : ∀ x ∈ db'.rideOffers,
    (x ∈ db.rideOffers ∧ ¬ x.isOn rideRequestId driverId) ∨ x = offer
  result_mem : offer ∈ db'.rideOffers
  result_on : offer.isOn rideRequestId driverId
  result_fare : offer.offeredFare = offeredFare
  result_status : offer.status = .pending
  result_id : (∃ o ∈ db.rideOffers, o.isOn rideRequestId driverId ∧ offer.id = o.id) ∨
    ((∀ o ∈ db.rideOffers, ¬ o.isOn rideRequestId driverId) ∧ offer.id = uuid)

/-- The tables after a statement that rewrites offers only. -/
structure OfferEffect (f : RideOffer → RideOffer) (db db' : RideTables) : Prop where
  profiles : db'.driverProfiles = db.driverProfiles
  requests : db'.rideRequests = db.rideRequests
  trips : db'.trips = db.trips
  offers : db.rideOffers.Rewrites f db'.rideOffers

/-- The tables after a statement that rewrites driver profiles only. -/
structure ProfileEffect (f : DriverProfile → DriverProfile) (db db' : RideTables) : Prop where
  profiles : db.driverProfiles.Rewrites f db'.driverProfiles
  requests : db'.rideRequests = db.rideRequests
  offers : db'.rideOffers = db.rideOffers
  trips : db'.trips = db.trips

/-- The tables after the insertion of a driver profile. -/
structure ProfileCreated (p : DriverProfile) (db db' : RideTables) : Prop where
  profiles : db.driverProfiles.Extends p db'.driverProfiles
  requests : db'.rideRequests = db.rideRequests
  offers : db'.rideOffers = db.rideOffers
  trips : db'.trips = db.trips

/-- The tables after the insertion of a ride request. -/
structure RequestCreated (r : RideRequest) (db db' : RideTables) : Prop where
  profiles : db'.driverProfiles = db.driverProfiles
  requests : db.rideRequests.Extends r db'.rideRequests
  offers : db'.rideOffers = db.rideOffers
  trips : db'.trips = db.trips
  fresh : ∀ x ∈ db.rideRequests, x.id ≠ r.id

def setOnlineRow (userId : Id) (isOnline : Bool) (p : DriverProfile) : DriverProfile :=
  if p.userId = userId then { p with isOnline } else p

def setLocationRow (userId : Id) (lat lng : Coord) (now : Millis) (p : DriverProfile) :
    DriverProfile :=
  if p.userId = userId then
    { p with currentLat := some lat, currentLng := some lng, locationUpdatedAt := some now }
  else p

def expireOfferRow (offerId : Id) (o : RideOffer) : RideOffer :=
  if o.id = offerId then { o with status := .expired } else o

def expireDriverOfferRow (driverProfileId : Id) (o : RideOffer) : RideOffer :=
  if o.driverId = driverProfileId ∧ o.status = .pending then { o with status := .expired } else o

namespace RideTables
variable {db db' : RideTables}

theorem acceptBatch_effect {a : Acceptance} {t : Trip} (h : db.acceptBatch a = .ok (t, db')) :
    a.Effect db t db' := by
  simp only [acceptBatch, bind_eq_ok, pure, Except.pure, Except.ok.injEq, Prod.mk.injEq] at h
  obtain ⟨⟨o, offers₁⟩, ho, offers₂, ho₂, ⟨r, requests⟩, hr, trips, ht, rfl, rfl⟩ := h
  obtain ⟨o₀, ho₀, hid, -, -, hu⟩ := Table.update_ok ho
  obtain ⟨r₀, hr₀, hrid, -, -, hru⟩ := Table.update_ok hr
  refine ⟨rfl, rfl, ?_, ?_, Table.Extends.of_create ht, ⟨o₀, ho₀, by simpa using hid⟩,
    ⟨r₀, hr₀, by simpa using hrid⟩, ?_⟩
  · refine (Table.Rewrites.of_updateMany hru).congr fun r => ?_
    simp [Acceptance.onRequest]
  · refine ((Table.Rewrites.of_updateMany hu).comp (Table.Rewrites.of_updateMany ho₂)).congr
      fun o => ?_
    by_cases hoa : o.id = a.offerId
    · simp [Acceptance.onOffer, hoa]
    · simp [Acceptance.onOffer, hoa]
  · intro x hx hreq
    exact Table.not_clash_of_create ht x hx
      ⟨TripKey.rideRequestId x.rideRequestId, by simp [Keyed.keys], by simp [Keyed.keys, hreq]⟩

theorem cancelBatch_effect {c : Cancellation} {r : RideRequest}
    (h : db.cancelBatch c = .ok (r, db')) : c.Effect db r db' := by
  simp only [cancelBatch, bind_eq_ok] at h
  obtain ⟨⟨r₁, requests⟩, hr, offers, ho, h⟩ := h
  obtain ⟨r₀, hr₀, hrid, -, hr₁, hru⟩ := Table.update_ok hr
  have hid : r₀.id = c.rideRequestId := by simpa using hrid
  have hreq : db.rideRequests.Rewrites c.onRequest requests :=
    (Table.Rewrites.of_updateMany hru).congr fun r => by simp [Cancellation.onRequest]
  have hoff : db.rideOffers.Rewrites c.onOffer offers :=
    (Table.Rewrites.of_updateMany ho).congr fun o => by simp [Cancellation.onOffer]
  have hres : ∃ r₀ ∈ db.rideRequests, r₀.id = c.rideRequestId ∧ r₁ = c.onRequest r₀ :=
    ⟨r₀, hr₀, hid, by simp [hr₁, Cancellation.onRequest, hid]⟩
  cases ht : c.tripId with
  | none =>
      simp only [ht, pure, Except.pure, Except.ok.injEq, Prod.mk.injEq] at h
      obtain ⟨rfl, rfl⟩ := h
      refine ⟨rfl, hreq, hoff, fun x => ?_, hres⟩
      simp [Cancellation.onTrip, ht]
  | some tripId =>
      simp only [ht, bind_eq_ok, pure, Except.pure, Except.ok.injEq, Prod.mk.injEq] at h
      obtain ⟨⟨t, trips⟩, htu, rfl, rfl⟩ := h
      obtain ⟨-, -, -, -, -, htu⟩ := Table.update_ok htu
      refine ⟨rfl, hreq, hoff, (Table.Rewrites.of_updateMany htu).congr fun t => ?_, hres⟩
      simp [Cancellation.onTrip, ht, eq_comm]

theorem startBatch_effect {u : TripUpdate} {t : Trip} (h : db.startBatch u = .ok (t, db')) :
    u.Effect u.startTrip .inProgress db t db' := by
  simp only [startBatch, bind_eq_ok, pure, Except.pure, Except.ok.injEq, Prod.mk.injEq] at h
  obtain ⟨⟨t₁, trips⟩, ht, ⟨r, requests⟩, hr, rfl, rfl⟩ := h
  obtain ⟨t₀, ht₀, hid, -, ht₁, htu⟩ := Table.update_ok ht
  obtain ⟨-, -, -, -, -, hru⟩ := Table.update_ok hr
  have hid : t₀.id = u.tripId := by simpa using hid
  refine ⟨rfl, (Table.Rewrites.of_updateMany hru).congr fun r => ?_, rfl,
    (Table.Rewrites.of_updateMany htu).congr fun t => ?_, t₀, ht₀, hid, ?_⟩
  · simp [TripUpdate.onRequest]
  · simp [TripUpdate.startTrip]
  · simp [ht₁, TripUpdate.startTrip, hid]

theorem completeBatch_effect {u : TripUpdate} {t : Trip}
    (h : db.completeBatch u = .ok (t, db')) :
    u.Effect u.completeTrip .completed db t db' := by
  simp only [completeBatch, bind_eq_ok, pure, Except.pure, Except.ok.injEq, Prod.mk.injEq] at h
  obtain ⟨⟨t₁, trips⟩, ht, ⟨r, requests⟩, hr, rfl, rfl⟩ := h
  obtain ⟨t₀, ht₀, hid, -, ht₁, htu⟩ := Table.update_ok ht
  obtain ⟨-, -, -, -, -, hru⟩ := Table.update_ok hr
  have hid : t₀.id = u.tripId := by simpa using hid
  refine ⟨rfl, (Table.Rewrites.of_updateMany hru).congr fun r => ?_, rfl,
    (Table.Rewrites.of_updateMany htu).congr fun t => ?_, t₀, ht₀, hid, ?_⟩
  · simp [TripUpdate.onRequest]
  · simp [TripUpdate.completeTrip]
  · simp [ht₁, TripUpdate.completeTrip, hid]

theorem upsertOffer_effect {rideRequestId driverId uuid : Id} {offeredFare : Fare}
    {offer : RideOffer}
    (h : db.upsertOffer rideRequestId driverId offeredFare uuid = .ok (offer, db')) :
    UpsertEffect rideRequestId driverId offeredFare uuid db offer db' := by
  simp only [upsertOffer, bind_eq_ok, pure, Except.pure, Except.ok.injEq, Prod.mk.injEq] at h
  obtain ⟨⟨o, offers⟩, ho, rfl, rfl⟩ := h
  rcases Table.upsert_ok ho with ⟨y, hy, hp, rfl, hu⟩ | ⟨hnone, rfl, hc⟩
  · have hrw := Table.Rewrites.of_updateMany hu
    have hon : y.isOn rideRequestId driverId := by simpa [RideOffer.isOn] using hp
    have hres := hrw.mem hy
    rw [if_pos hp] at hres
    refine ⟨rfl, rfl, rfl, hrw.persists fun o => ?_, ?_, ?_, hres, hon, rfl, rfl,
      Or.inl ⟨y, hy, hon, rfl⟩⟩
    · split <;> rfl
    · intro o ho hno
      have := hrw.mem ho
      rwa [if_neg (by simpa [RideOffer.isOn] using hno)] at this
    · intro x hx
      obtain ⟨z, hz, rfl⟩ := (hrw x).mp hx
      dsimp only
      split
      · next hzp =>
          have hzon : z.isOn rideRequestId driverId := by simpa [RideOffer.isOn] using hzp
          obtain rfl : z = y := RideOffer.eq_of_request_driver hz hy
            (hzon.1.trans hon.1.symm) (hzon.2.trans hon.2.symm)
          exact Or.inr rfl
      · next hzp => exact Or.inl ⟨hz, by simpa [RideOffer.isOn] using hzp⟩
  · have hext := Table.Extends.of_create hc
    have hnot : ∀ o ∈ db.rideOffers, ¬ o.isOn rideRequestId driverId := by
      intro o ho
      simpa [RideOffer.isOn] using hnone o ho
    refine ⟨rfl, rfl, rfl, hext.persists, fun o ho _ => hext.mem_old ho, ?_, hext.mem_new,
      ⟨rfl, rfl⟩, rfl, rfl, Or.inr ⟨hnot, rfl⟩⟩
    intro x hx
    rcases (hext x).mp hx with hx | rfl
    · exact Or.inl ⟨hx, hnot x hx⟩
    · exact Or.inr rfl

theorem expireOffer_effect {offerId : Id} {o : RideOffer}
    (h : db.expireOffer offerId = .ok (o, db')) : OfferEffect (expireOfferRow offerId) db db' := by
  simp only [expireOffer, bind_eq_ok, pure, Except.pure, Except.ok.injEq, Prod.mk.injEq] at h
  obtain ⟨⟨o₁, offers⟩, ho, rfl, rfl⟩ := h
  obtain ⟨-, -, -, -, -, hu⟩ := Table.update_ok ho
  refine ⟨rfl, rfl, rfl, (Table.Rewrites.of_updateMany hu).congr fun o => ?_⟩
  simp [expireOfferRow]

theorem expireDriverOffers_effect {driverProfileId : Id} {u : Unit}
    (h : db.expireDriverOffers driverProfileId = .ok (u, db')) :
    OfferEffect (expireDriverOfferRow driverProfileId) db db' := by
  simp only [expireDriverOffers, bind_eq_ok, pure, Except.pure, Except.ok.injEq,
    Prod.mk.injEq] at h
  obtain ⟨offers, hu, -, rfl⟩ := h
  refine ⟨rfl, rfl, rfl, (Table.Rewrites.of_updateMany hu).congr fun o => ?_⟩
  simp [expireDriverOfferRow]

/-- Neither expiry touches a key, so neither is refused. -/
theorem expireOffer_isOk {offerId : Id} {o : RideOffer} (ho : o ∈ db.rideOffers)
    (hid : o.id = offerId) : ∃ x db', db.expireOffer offerId = .ok (x, db') := by
  obtain ⟨x, offers, hu⟩ := Table.update_isOk (p := fun o => o.id = offerId)
    (f := fun o => { o with status := .expired }) ho (decide_eq_true hid) fun _ => rfl
  exact ⟨x, { db with rideOffers := offers }, by rw [expireOffer, hu]; rfl⟩

theorem expireDriverOffers_isOk (db : RideTables) (driverProfileId : Id) :
    ∃ db', db.expireDriverOffers driverProfileId = .ok ((), db') := by
  have hu := Table.updateMany_eq_modify db.rideOffers
    (fun o => o.driverId = driverProfileId ∧ o.status = .pending)
    (fun o => { o with status := .expired }) fun _ => rfl
  exact ⟨_, by rw [expireDriverOffers, hu]; rfl⟩

/-- An offer is stored under a new id, or in the place of the driver's earlier one. -/
theorem upsertOffer_isOk {rideRequestId driverId uuid : Id} {offeredFare : Fare}
    (huuid : ∀ o ∈ db.rideOffers, o.id ≠ uuid) :
    ∃ o db', db.upsertOffer rideRequestId driverId offeredFare uuid = .ok (o, db') := by
  obtain ⟨o, offers, hu⟩ := Table.upsert_isOk (t := db.rideOffers)
    (p := fun o => o.rideRequestId = rideRequestId ∧ o.driverId = driverId)
    (r := ⟨uuid, rideRequestId, driverId, offeredFare, .pending⟩)
    (f := fun o => { o with offeredFare, status := .pending }) (fun _ => rfl)
    fun hnone y hy hc => by
      rcases RideOffer.clash_iff.mp hc with hid | hon
      · exact huuid y hy hid
      · exact of_decide_eq_false (hnone y hy) hon
  exact ⟨o, { db with rideOffers := offers }, by rw [upsertOffer, hu]; rfl⟩

/-- An acceptance is refused only for want of its rows or because of another trip. -/
theorem acceptBatch_isOk {a : Acceptance} (ho : ∃ o ∈ db.rideOffers, o.id = a.offerId)
    (hr : ∃ r ∈ db.rideRequests, r.id = a.rideRequestId)
    (hfresh : ∀ t ∈ db.trips, t.id ≠ a.tripId ∧ t.rideRequestId ≠ a.rideRequestId) :
    ∃ t db', db.acceptBatch a = .ok (t, db') := by
  obtain ⟨o, ho, hoid⟩ := ho
  obtain ⟨r, hr, hrid⟩ := hr
  obtain ⟨o', offers, hu⟩ := Table.update_isOk (p := fun o => o.id = a.offerId)
    (f := fun o => { o with status := .accepted }) ho (decide_eq_true hoid) fun _ => rfl
  obtain ⟨expired, hm⟩ := Table.updateMany_isOk (t := offers)
    (p := fun o => o.rideRequestId = a.rideRequestId ∧ o.status = .pending ∧ o.id ≠ a.offerId)
    (f := fun o => { o with status := .expired }) fun _ => rfl
  obtain ⟨r', requests, hru⟩ := Table.update_isOk (p := fun r => r.id = a.rideRequestId)
    (f := fun r => { r with status := .matched }) hr (decide_eq_true hrid) fun _ => rfl
  obtain ⟨trips, ht⟩ := Table.create_eq_ok (t := db.trips) (r := a.trip) fun t ht hc => by
    rcases Trip.clash_iff.mp hc with hid | hreq
    · exact (hfresh t ht).1 hid
    · exact (hfresh t ht).2 hreq
  refine ⟨a.trip, ⟨db.driverProfiles, requests, expired, trips⟩, ?_⟩
  unfold Acceptance.trip at ht
  simp only [acceptBatch, hu, hm, hru, ht, bind, Except.bind]
  rfl

/-- A cancellation is refused only for want of its rows. -/
theorem cancelBatch_isOk {c : Cancellation} (hr : ∃ r ∈ db.rideRequests, r.id = c.rideRequestId)
    (ht : ∀ id, c.tripId = some id → ∃ t ∈ db.trips, t.id = id) :
    ∃ r db', db.cancelBatch c = .ok (r, db') := by
  obtain ⟨r, hr, hrid⟩ := hr
  obtain ⟨r', requests, hru⟩ := Table.update_isOk (p := fun r => r.id = c.rideRequestId)
    (f := fun r => { r with
      status := .cancelled
      cancelReason := c.reason <|> r.cancelReason
      cancelledAt := some c.cancelledAt }) hr (decide_eq_true hrid) fun _ => rfl
  obtain ⟨expired, hm⟩ := Table.updateMany_isOk (t := db.rideOffers)
    (p := fun o => o.rideRequestId = c.rideRequestId ∧ o.status = .pending)
    (f := fun o => { o with status := .expired }) fun _ => rfl
  cases hid : c.tripId with
  | none =>
      refine ⟨r', ⟨db.driverProfiles, requests, expired, db.trips⟩, ?_⟩
      simp only [cancelBatch, hru, hm, hid, bind, Except.bind]
      rfl
  | some id =>
      obtain ⟨t, ht, htid⟩ := ht id hid
      obtain ⟨t', trips, htu⟩ := Table.update_isOk (p := fun t => t.id = id)
        (f := fun t => { t with
          status := .cancelled
          cancelReason := c.reason <|> t.cancelReason }) ht (decide_eq_true htid) fun _ => rfl
      refine ⟨r', ⟨db.driverProfiles, requests, expired, trips⟩, ?_⟩
      simp only [cancelBatch, hru, hm, hid, htu, bind, Except.bind]
      rfl

/-- A trip is started, or completed, whenever it and its request are there. -/
theorem startBatch_isOk {u : TripUpdate} (ht : ∃ t ∈ db.trips, t.id = u.tripId)
    (hr : ∃ r ∈ db.rideRequests, r.id = u.rideRequestId) :
    ∃ t db', db.startBatch u = .ok (t, db') := by
  obtain ⟨t, ht, htid⟩ := ht
  obtain ⟨r, hr, hrid⟩ := hr
  obtain ⟨t', trips, htu⟩ := Table.update_isOk (p := fun t => t.id = u.tripId)
    (f := fun t => { t with status := .started, startedAt := some u.now }) ht
    (decide_eq_true htid) fun _ => rfl
  obtain ⟨r', requests, hru⟩ := Table.update_isOk (p := fun r => r.id = u.rideRequestId)
    (f := fun r => { r with status := .inProgress }) hr (decide_eq_true hrid) fun _ => rfl
  refine ⟨t', ⟨db.driverProfiles, requests, db.rideOffers, trips⟩, ?_⟩
  simp only [startBatch, htu, hru, bind, Except.bind]
  rfl

theorem completeBatch_isOk {u : TripUpdate} (ht : ∃ t ∈ db.trips, t.id = u.tripId)
    (hr : ∃ r ∈ db.rideRequests, r.id = u.rideRequestId) :
    ∃ t db', db.completeBatch u = .ok (t, db') := by
  obtain ⟨t, ht, htid⟩ := ht
  obtain ⟨r, hr, hrid⟩ := hr
  obtain ⟨t', trips, htu⟩ := Table.update_isOk (p := fun t => t.id = u.tripId)
    (f := fun t => { t with status := .completed, endedAt := some u.now }) ht
    (decide_eq_true htid) fun _ => rfl
  obtain ⟨r', requests, hru⟩ := Table.update_isOk (p := fun r => r.id = u.rideRequestId)
    (f := fun r => { r with status := .completed }) hr (decide_eq_true hrid) fun _ => rfl
  refine ⟨t', ⟨db.driverProfiles, requests, db.rideOffers, trips⟩, ?_⟩
  simp only [completeBatch, htu, hru, bind, Except.bind]
  rfl

theorem createDriverProfile_effect {p : DriverProfile} {u : Unit}
    (h : db.createDriverProfile p = .ok (u, db')) : ProfileCreated p db db' := by
  simp only [createDriverProfile, bind_eq_ok, pure, Except.pure, Except.ok.injEq,
    Prod.mk.injEq] at h
  obtain ⟨profiles, hc, -, rfl⟩ := h
  exact ⟨Table.Extends.of_create hc, rfl, rfl, rfl⟩

theorem setOnline_effect {userId : Id} {isOnline : Bool} {p : DriverProfile}
    (h : db.setOnline userId isOnline = .ok (p, db')) :
    ProfileEffect (setOnlineRow userId isOnline) db db' ∧
      ∃ p₀ ∈ db.driverProfiles, p₀.userId = userId ∧ p = { p₀ with isOnline } := by
  simp only [setOnline, bind_eq_ok, pure, Except.pure, Except.ok.injEq, Prod.mk.injEq] at h
  obtain ⟨⟨p₁, profiles⟩, hp, rfl, rfl⟩ := h
  obtain ⟨p₀, hp₀, hu₀, -, rfl, hu⟩ := Table.update_ok hp
  refine ⟨⟨(Table.Rewrites.of_updateMany hu).congr fun p => ?_, rfl, rfl, rfl⟩,
    p₀, hp₀, by simpa using hu₀, rfl⟩
  simp [setOnlineRow]

theorem setLocation_effect {userId : Id} {lat lng : Coord} {now : Millis} {p : DriverProfile}
    (h : db.setLocation userId lat lng now = .ok (p, db')) :
    ProfileEffect (setLocationRow userId lat lng now) db db' := by
  simp only [setLocation, bind_eq_ok, pure, Except.pure, Except.ok.injEq, Prod.mk.injEq] at h
  obtain ⟨⟨p₁, profiles⟩, hp, rfl, rfl⟩ := h
  obtain ⟨-, -, -, -, -, hu⟩ := Table.update_ok hp
  refine ⟨(Table.Rewrites.of_updateMany hu).congr fun p => ?_, rfl, rfl, rfl⟩
  simp [setLocationRow]

theorem createRideRequest_effect {r r' : RideRequest}
    (h : db.createRideRequest r = .ok (r', db')) : r' = r ∧ RequestCreated r db db' := by
  simp only [createRideRequest, bind_eq_ok, pure, Except.pure, Except.ok.injEq,
    Prod.mk.injEq] at h
  obtain ⟨requests, hc, rfl, rfl⟩ := h
  refine ⟨rfl, rfl, Table.Extends.of_create hc, rfl, rfl, fun x hx hid => ?_⟩
  exact Table.not_clash_of_create hc x hx ⟨x.id, by simp [Keyed.keys], by simp [Keyed.keys, hid]⟩

end RideTables

end Reedr
