import Reedr.Ride.Issued

/-!
# What no ride statement ever undoes

Rows are never deleted, and the columns that identify a row and its parties are
never written again. Every interleaved call may rely on this between its reads
and its write, and on nothing else.
-/

namespace Reedr
open Relational Interleaving

/-- The columns of a profile that are fixed at its creation. -/
def DriverProfile.identity (p : DriverProfile) : Id × Id × Id :=
  (p.id, p.userId, p.driverApplicationId)

/-- The columns of a ride request that are fixed at its creation and decide access. -/
def RideRequest.identity (r : RideRequest) : Id × Id := (r.id, r.riderId)

/-- The columns of an offer that a re-submission keeps. -/
def RideOffer.identity (o : RideOffer) : Id × Id × Id := (o.id, o.rideRequestId, o.driverId)

/-- What a trip was agreed on. -/
def Trip.terms (t : Trip) : Id × Id × Id × Id × Fare :=
  (t.id, t.rideRequestId, t.driverId, t.riderId, t.agreedFare)

/-- The status of a ride request whose trip has the given status. -/
def TripStatus.onRequest : TripStatus → RideRequestStatus
  | .matched => .matched
  | .started => .inProgress
  | .completed => .completed
  | .cancelled => .cancelled

section Identity

@[simp] theorem DriverProfile.identity_eq {p q : DriverProfile} :
    p.identity = q.identity ↔
      p.id = q.id ∧ p.userId = q.userId ∧ p.driverApplicationId = q.driverApplicationId := by
  simp [identity]

@[simp] theorem RideRequest.identity_eq {r s : RideRequest} :
    r.identity = s.identity ↔ r.id = s.id ∧ r.riderId = s.riderId := by
  simp [identity]

@[simp] theorem RideOffer.identity_eq {o q : RideOffer} :
    o.identity = q.identity ↔
      o.id = q.id ∧ o.rideRequestId = q.rideRequestId ∧ o.driverId = q.driverId := by
  simp [identity]

@[simp] theorem Trip.terms_eq {t u : Trip} :
    t.terms = u.terms ↔ t.id = u.id ∧ t.rideRequestId = u.rideRequestId ∧
      t.driverId = u.driverId ∧ t.riderId = u.riderId ∧ t.agreedFare = u.agreedFare := by
  simp [terms]

end Identity

section Rows

theorem Acceptance.onOffer_identity (a : Acceptance) (o : RideOffer) :
    (a.onOffer o).identity = o.identity := by
  unfold Acceptance.onOffer
  split_ifs <;> rfl

theorem Acceptance.onOffer_fare (a : Acceptance) (o : RideOffer) :
    (a.onOffer o).offeredFare = o.offeredFare := by
  unfold Acceptance.onOffer
  split_ifs <;> rfl

/-- Only the offer it names becomes accepted. -/
theorem Acceptance.onOffer_accepted (a : Acceptance) {o : RideOffer}
    (h : (a.onOffer o).status = .accepted) : o.id = a.offerId ∨ o.status = .accepted := by
  unfold Acceptance.onOffer at h
  split_ifs at h with hid hp
  · exact Or.inl hid
  · exact Or.inr h

theorem Acceptance.onRequest_identity (a : Acceptance) (r : RideRequest) :
    (a.onRequest r).identity = r.identity := by
  unfold Acceptance.onRequest
  split <;> rfl

theorem Cancellation.onRequest_identity (c : Cancellation) (r : RideRequest) :
    (c.onRequest r).identity = r.identity := by
  unfold Cancellation.onRequest
  split <;> rfl

theorem Cancellation.onTrip_terms (c : Cancellation) (t : Trip) :
    (c.onTrip t).terms = t.terms := by
  unfold Cancellation.onTrip
  split <;> rfl

theorem TripUpdate.onRequest_identity (u : TripUpdate) (status : RideRequestStatus)
    (r : RideRequest) : (u.onRequest status r).identity = r.identity := by
  unfold TripUpdate.onRequest
  split <;> rfl

theorem TripUpdate.startTrip_terms (u : TripUpdate) (t : Trip) :
    (u.startTrip t).terms = t.terms := by
  unfold TripUpdate.startTrip
  split <;> rfl

theorem TripUpdate.completeTrip_terms (u : TripUpdate) (t : Trip) :
    (u.completeTrip t).terms = t.terms := by
  unfold TripUpdate.completeTrip
  split <;> rfl

theorem Acceptance.onRequest_status (a : Acceptance) (r : RideRequest) :
    (a.onRequest r).status = if r.id = a.rideRequestId then .matched else r.status := by
  unfold Acceptance.onRequest
  split <;> rfl

theorem Cancellation.onRequest_status (c : Cancellation) (r : RideRequest) :
    (c.onRequest r).status = if r.id = c.rideRequestId then .cancelled else r.status := by
  unfold Cancellation.onRequest
  split <;> rfl

theorem TripUpdate.onRequest_status (u : TripUpdate) (status : RideRequestStatus)
    (r : RideRequest) :
    (u.onRequest status r).status = if r.id = u.rideRequestId then status else r.status := by
  unfold TripUpdate.onRequest
  split <;> rfl

theorem TripUpdate.startTrip_status (u : TripUpdate) (t : Trip) :
    (u.startTrip t).status = if t.id = u.tripId then .started else t.status := by
  unfold TripUpdate.startTrip
  split <;> rfl

theorem TripUpdate.completeTrip_status (u : TripUpdate) (t : Trip) :
    (u.completeTrip t).status = if t.id = u.tripId then .completed else t.status := by
  unfold TripUpdate.completeTrip
  split <;> rfl

/-- `x` is the offer `y` at a later moment: same parties, same fare, and not
accepted meanwhile. -/
structure RideOffer.Continues (x y : RideOffer) : Prop where
  identity : x.identity = y.identity
  fare : x.offeredFare = y.offeredFare
  accepted : x.status = .accepted → y.status = .accepted

theorem RideOffer.Continues.refl (o : RideOffer) : o.Continues o := ⟨rfl, rfl, fun h => h⟩

/-- Expiring some offers continues them all. -/
theorem expired_continues (p : Prop) [Decidable p] (o : RideOffer) :
    (if p then { o with status := .expired } else o).Continues o := by
  split
  · exact ⟨rfl, rfl, fun h => nomatch h⟩
  · exact .refl o

theorem Cancellation.onOffer_continues (c : Cancellation) (o : RideOffer) :
    (c.onOffer o).Continues o := expired_continues _ o

theorem expireOfferRow_continues (offerId : Id) (o : RideOffer) :
    (expireOfferRow offerId o).Continues o := expired_continues _ o

theorem expireDriverOfferRow_continues (driverProfileId : Id) (o : RideOffer) :
    (expireDriverOfferRow driverProfileId o).Continues o := expired_continues _ o

end Rows

/-- Later tables: every row is still there, and a trip that has left MATCHED
has not come back to it. -/
structure RideTables.Grows (db db' : RideTables) : Prop where
  profiles : db.driverProfiles.Persists DriverProfile.identity db'.driverProfiles
  requests : db.rideRequests.Persists RideRequest.identity db'.rideRequests
  offers : db.rideOffers.Persists RideOffer.identity db'.rideOffers
  trips : db.trips.Persists Trip.terms db'.trips
  departed : ∀ t ∈ db.trips, t.status ≠ .matched →
    ∀ t' ∈ db'.trips, t'.id = t.id → t'.status ≠ .matched

namespace RideTables.Grows
variable {db db₁ db₂ db₃ db' : RideTables}

theorem refl (db : RideTables) : db.Grows db where
  profiles := .refl _
  requests := .refl _
  offers := .refl _
  trips := .refl _
  departed t ht hne t' ht' hid := by rwa [Trip.eq_of_id ht' ht hid]

theorem trans (h₁ : db₁.Grows db₂) (h₂ : db₂.Grows db₃) : db₁.Grows db₃ where
  profiles := h₁.profiles.trans h₂.profiles
  requests := h₁.requests.trans h₂.requests
  offers := h₁.offers.trans h₂.offers
  trips := h₁.trips.trans h₂.trips
  departed t ht hne t' ht' hid := by
    obtain ⟨u, hu, hut⟩ := h₁.trips t ht
    have huid : u.id = t.id := (Trip.terms_eq.mp hut).1
    exact h₂.departed u hu (h₁.departed t ht hne u hu huid) t' ht' (hid.trans huid.symm)

/-- Tables whose trips are rewritten one by one, none of them back to MATCHED. -/
private theorem departed_of_rewrites {f : Trip → Trip} (h : db.trips.Rewrites f db'.trips)
    (hterms : ∀ t, (f t).terms = t.terms)
    (hstatus : ∀ t, t.status ≠ .matched → (f t).status ≠ .matched) :
    ∀ t ∈ db.trips, t.status ≠ .matched →
      ∀ t' ∈ db'.trips, t'.id = t.id → t'.status ≠ .matched := by
  intro t ht hne t' ht' hid
  obtain ⟨u, hu, rfl⟩ := (h t').mp ht'
  obtain rfl := Trip.eq_of_id hu ht ((Trip.terms_eq.mp (hterms u)).1.symm.trans hid)
  exact hstatus u hne

/-- Every statement only lets the tables grow. -/
theorem of_wrote {o : Stmt} (h : Backend.Wrote o db db') : db.Grows db' := by
  cases h with
  | nothing ho => exact refl db
  | createDriverProfile h =>
      have hg := refl db
      exact ⟨h.profiles.persists, h.requests ▸ hg.requests, h.offers ▸ hg.offers,
        h.trips ▸ hg.trips, h.trips ▸ hg.departed⟩
  | updateDriverProfile ho h hf =>
      have hg := refl db
      exact ⟨h.profiles.persists fun p => by simp [hf], h.requests ▸ hg.requests,
        h.offers ▸ hg.offers, h.trips ▸ hg.trips, h.trips ▸ hg.departed⟩
  | createRideRequest h =>
      have hg := refl db
      exact ⟨h.profiles ▸ hg.profiles, h.requests.persists, h.offers ▸ hg.offers,
        h.trips ▸ hg.trips, h.trips ▸ hg.departed⟩
  | upsertOffer h =>
      have hg := refl db
      exact ⟨h.profiles ▸ hg.profiles, h.requests ▸ hg.requests, h.persists,
        h.trips ▸ hg.trips, h.trips ▸ hg.departed⟩
  | acceptBatch h =>
      refine ⟨h.profiles ▸ (refl db).profiles,
        h.requests.persists (Acceptance.onRequest_identity _),
        h.offers.persists (Acceptance.onOffer_identity _), h.trips.persists, ?_⟩
      intro t ht hne t' ht' hid
      rw [Trip.eq_of_id ht' (h.trips.mem_old ht) hid]
      exact hne
  | expireOffer h =>
      have hg := refl db
      exact ⟨h.profiles ▸ hg.profiles, h.requests ▸ hg.requests,
        h.offers.persists fun o => (expireOfferRow_continues _ o).identity, h.trips ▸ hg.trips,
        h.trips ▸ hg.departed⟩
  | expireDriverOffers h =>
      have hg := refl db
      exact ⟨h.profiles ▸ hg.profiles, h.requests ▸ hg.requests,
        h.offers.persists fun o => (expireDriverOfferRow_continues _ o).identity,
        h.trips ▸ hg.trips, h.trips ▸ hg.departed⟩
  | @cancelBatch c _ _ _ h =>
      refine ⟨h.profiles ▸ (refl db).profiles, h.requests.persists c.onRequest_identity,
        h.offers.persists fun o => (c.onOffer_continues o).identity,
        h.trips.persists c.onTrip_terms,
        departed_of_rewrites h.trips c.onTrip_terms fun t hne => ?_⟩
      unfold Cancellation.onTrip
      split
      · exact fun hc => nomatch hc
      · exact hne
  | @startBatch u _ _ _ h =>
      refine ⟨h.profiles ▸ (refl db).profiles, h.requests.persists (u.onRequest_identity _),
        h.offers ▸ (refl db).offers, h.trips.persists u.startTrip_terms,
        departed_of_rewrites h.trips u.startTrip_terms fun t hne => ?_⟩
      unfold TripUpdate.startTrip
      split
      · exact fun hc => nomatch hc
      · exact hne
  | @completeBatch u _ _ _ h =>
      refine ⟨h.profiles ▸ (refl db).profiles, h.requests.persists (u.onRequest_identity _),
        h.offers ▸ (refl db).offers, h.trips.persists u.completeTrip_terms,
        departed_of_rewrites h.trips u.completeTrip_terms fun t hne => ?_⟩
      unfold TripUpdate.completeTrip
      split
      · exact fun hc => nomatch hc
      · exact hne

end RideTables.Grows

end Reedr
