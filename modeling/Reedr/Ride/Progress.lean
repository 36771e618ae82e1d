import Reedr.Library.Progress
import Reedr.Ride.History

/-!
# No ride is stuck

Whatever calls have run, failed or are still in flight, a ride that has not
ended can be brought to an end: a pending request by any driver with a profile
and its rider, a trip by its driver, a request that may be cancelled by its rider.
-/

namespace Reedr
open Relational Interleaving

/-- A pending request has no trip. -/
def RideTables.PendingUnmatched (db : RideTables) : Prop :=
  ∀ r ∈ db.rideRequests, r.status = .pending → ∀ t ∈ db.trips, t.rideRequestId ≠ r.id

section Commit
variable {cfg : Config} {w : RideWorld} {i : Invocation} {o : Stmt} {b : o.Res} {s : Backend}

/-- Writes that make no request pending, and leave the trips their requests. -/
private theorem RideTables.PendingUnmatched.rewrite {db db' : RideTables}
    (h : db.PendingUnmatched) {f : RideRequest → RideRequest} {g : Trip → Trip}
    (hr : db.rideRequests.Rewrites f db'.rideRequests) (ht : db.trips.Rewrites g db'.trips)
    (hid : ∀ r, (f r).id = r.id) (hst : ∀ r, (f r).status = .pending → r.status = .pending)
    (hreq : ∀ t, (g t).rideRequestId = t.rideRequestId) : db'.PendingUnmatched := by
  intro r' hr' hpend t' ht' heq
  obtain ⟨r, hr, rfl⟩ := (hr r').mp hr'
  obtain ⟨t, ht, rfl⟩ := (ht t').mp ht'
  exact h r hr (hst r hpend) t ht ((hreq t).symm.trans (heq.trans (hid r)))

/-- No write makes a request with a trip pending. -/
theorem pendingUnmatched_commit (hR : Recorded w) (h : (tablesOf w).PendingUnmatched)
    (hx : Backend.exec cfg o w.shared = .ok (b, s)) : s.tables.PendingUnmatched := by
  have hwrote := Backend.exec_wrote hx
  generalize s.tables = db' at hwrote
  have same (hr : db'.rideRequests = (tablesOf w).rideRequests)
      (ht : db'.trips = (tablesOf w).trips) : db'.PendingUnmatched := by
    unfold RideTables.PendingUnmatched
    rw [hr, ht]
    exact h
  cases hwrote with
  | nothing ho => exact h
  | createDriverProfile he => exact same he.requests he.trips
  | updateDriverProfile ho he hf => exact same he.requests he.trips
  | upsertOffer he => exact same he.requests he.trips
  | expireOffer he => exact same he.requests he.trips
  | expireDriverOffers he => exact same he.requests he.trips
  | createRideRequest he =>
      intro r hr hpend t ht heq
      rw [he.trips] at ht
      rcases (he.requests r).mp hr with hr | rfl
      · exact h r hr hpend t ht heq
      · obtain ⟨x, hx, hid, -⟩ := hR.trip_request t ht
        exact he.fresh x hx (hid.trans heq)
  | @acceptBatch a _ _ _ he =>
      intro r' hr' hpend t' ht' heq
      obtain ⟨r, hr, rfl⟩ := (he.requests r').mp hr'
      have hid : (a.onRequest r).id = r.id :=
        (RideRequest.identity_eq.mp (a.onRequest_identity r)).1
      rw [a.onRequest_status] at hpend
      split at hpend
      · cases hpend
      · next hne =>
          rcases (he.trips t').mp ht' with ht | rfl
          · exact h r hr hpend t' ht (heq.trans hid)
          · exact hne (hid.symm.trans heq.symm)
  | @cancelBatch c _ _ _ he =>
      refine h.rewrite he.requests he.trips
        (fun r => (RideRequest.identity_eq.mp (c.onRequest_identity r)).1) (fun r hpend => ?_)
        fun t => (Trip.terms_eq.mp (c.onTrip_terms t)).2.1
      rw [c.onRequest_status] at hpend
      split at hpend
      · cases hpend
      · exact hpend
  | @startBatch u _ _ _ he =>
      refine h.rewrite he.requests he.trips
        (fun r => (RideRequest.identity_eq.mp (u.onRequest_identity _ r)).1) (fun r hpend => ?_)
        fun t => (Trip.terms_eq.mp (u.startTrip_terms t)).2.1
      rw [u.onRequest_status] at hpend
      split at hpend
      · cases hpend
      · exact hpend
  | @completeBatch u _ _ _ he =>
      refine h.rewrite he.requests he.trips
        (fun r => (RideRequest.identity_eq.mp (u.onRequest_identity _ r)).1) (fun r hpend => ?_)
        fun t => (Trip.terms_eq.mp (u.completeTrip_terms t)).2.1
      rw [u.onRequest_status] at hpend
      split at hpend
      · cases hpend
      · exact hpend

end Commit

section Lookups
variable {db : RideTables}

theorem RideTables.findRideRequest_of_mem {r : RideRequest} (hr : r ∈ db.rideRequests) :
    db.findRideRequest r.id = some r :=
  Table.find?_of_unique hr (decide_eq_true rfl) fun _ hx hid =>
    RideRequest.eq_of_id hx hr (of_decide_eq_true hid)

theorem RideTables.findTrip_of_mem {t : Trip} (ht : t ∈ db.trips) : db.findTrip t.id = some t :=
  Table.find?_of_unique ht (decide_eq_true rfl) fun _ hx hid =>
    Trip.eq_of_id hx ht (of_decide_eq_true hid)

theorem RideTables.findOfferWithRequest_of_mem {o : RideOffer} {r : RideRequest}
    {p : DriverProfile} (ho : o ∈ db.rideOffers) (hr : r ∈ db.rideRequests)
    (hreq : r.id = o.rideRequestId) (hp : p ∈ db.driverProfiles) (hdriver : p.id = o.driverId) :
    db.findOfferWithRequest o.id = some ⟨o, r, p.userId⟩ := by
  have hfind : db.rideOffers.find? (fun x => x.id = o.id) = some o :=
    Table.find?_of_unique ho (decide_eq_true rfl) fun _ hx hid =>
      RideOffer.eq_of_id hx ho (of_decide_eq_true hid)
  rw [findOfferWithRequest, findOffer, hfind]
  simp only [Option.bind_some, withDriver, ← hdriver, findDriverProfile_of_mem hp, ← hreq,
    findRideRequest_of_mem hr, Option.map_some]

end Lookups

section Calls
variable {cfg : Config} {n : Nat} {i : Invocation} {w : RideWorld}

/-- Putting off the expiry of an offer goes through whether or not its job can be
removed, and leaves the tables alone. -/
private theorem cancelScheduledExpiry_returns {db : RideTables} (offerId : Id)
    (hw : tablesOf w = db) :
    (OffersService.cancelScheduledExpiry offerId).Returns (rideSystem cfg) n i
      (fun _ w' => tablesOf w' = db) w := by
  refine .perform_bind rfl ?_
  split
  · next job _ =>
      refine .recover_perform (σ := rideSignature) (o := .removeJob job.jobId)
        (fun b s hx => ?_) fun _ => ?_
      · exact ((Backend.frame hx).tables rfl).trans hw
      · exact hw
  · exact hw

private theorem scheduleExpiry_returns {db : RideTables} (offerId : Id)
    (hw : tablesOf w = db) :
    (OffersService.scheduleExpiry cfg offerId).Returns (rideSystem cfg) n i
      (fun _ w' => tablesOf w' = db) w := by
  refine .bind ((cancelScheduledExpiry_returns offerId hw).mono fun _ w' hw' => ?_)
  exact .perform (σ := rideSignature) (o := .addJob (.expireOffer offerId) cfg.offerExpiryMs
    (OffersService.offerJobId offerId)) rfl hw'

/-- A driver's offer on a pending request. -/
structure RideTables.Offered (db : RideTables) (r : RideRequest) (p : DriverProfile)
    (fare : Fare) : Prop where
  request : r ∈ db.rideRequests
  pending : r.status = .pending
  profile : p ∈ db.driverProfiles
  offer : ∃ o ∈ db.rideOffers, o.rideRequestId = r.id ∧ o.driverId = p.id ∧
    o.offeredFare = fare ∧ o.status = .pending

theorem OffersService.submitOffer_returns {p : DriverProfile}
    (hp : p ∈ (tablesOf w).driverProfiles)
    {r : RideRequest} (hr : r ∈ (tablesOf w).rideRequests) (hst : r.status = .pending)
    {uuid : Id} (huuid : ∀ o ∈ (tablesOf w).rideOffers, o.id ≠ uuid) (fare : Fare) :
    (OffersService.submitOffer cfg p.userId r.id fare uuid).Returns (rideSystem cfg) n i
      (fun _ w' => (tablesOf w').Offered r p fare) w := by
  refine .perform_bind rfl (.required_bind (RideTables.findDriverProfileByUser_of_mem hp) ?_)
  refine .perform_bind rfl (.required_bind (RideTables.findRideRequest_of_mem hr) ?_)
  refine .ensure_bind hst ?_
  obtain ⟨offer, db', hu⟩ : ∃ offer db',
      (tablesOf w).upsertOffer r.id p.id fare uuid = .ok (offer, db') :=
    RideTables.upsertOffer_isOk huuid
  have he := RideTables.upsertOffer_effect hu
  have hx : Backend.exec cfg (.upsertOffer r.id p.id fare uuid) w.shared =
      .ok (offer, { w.shared with tables := db' }) :=
    Backend.onTables_of_ok (f := fun db => db.upsertOffer r.id p.id fare uuid) hu
  refine .perform_bind hx ?_
  refine .bind ((scheduleExpiry_returns offer.id (rfl : _ = db')).mono fun _ w' hw' => ?_)
  refine .perform_bind rfl (.done ?_)
  show (tablesOf w').Offered r p fare
  rw [hw']
  exact ⟨he.requests ▸ hr, hst, he.profiles ▸ hp, offer, he.result_mem, he.result_on.1,
    he.result_on.2, he.result_fare, he.result_status⟩

/-- The trip, on the terms of `t`, has come to the status, and its request with it. -/
def RideTables.TripAt (db : RideTables) (t : Trip) (status : TripStatus) : Prop :=
  ∃ t' ∈ db.trips, t'.terms = t.terms ∧ t'.status = status ∧
    ∃ r ∈ db.rideRequests, r.id = t.rideRequestId ∧ r.status = status.onRequest

theorem OffersService.acceptOffer_returns {r : RideRequest} {p : DriverProfile} {fare : Fare}
    {uuid : Id}
    (h : (tablesOf w).Offered r p fare) (hfree : ∀ t ∈ (tablesOf w).trips, t.rideRequestId ≠ r.id)
    (huuid : ∀ t ∈ (tablesOf w).trips, t.id ≠ uuid) {o : RideOffer}
    (ho : o ∈ (tablesOf w).rideOffers) (hreq : o.rideRequestId = r.id) (hdriver : o.driverId = p.id)
    (hfare : o.offeredFare = fare) (host : o.status = .pending) :
    (OffersService.acceptOffer r.riderId o.id uuid).Returns (rideSystem cfg) n i
      (fun _ w' => (tablesOf w').TripAt
        ⟨uuid, r.id, p.userId, r.riderId, fare, .matched, none, none, none⟩ .matched) w := by
  refine .perform_bind rfl (.required_bind (RideTables.findOfferWithRequest_of_mem ho h.request
    hreq.symm h.profile hdriver.symm) ?_)
  refine .ensure_bind rfl (.ensure_bind ⟨h.pending, host⟩ (.perform_bind rfl ?_))
  let a : Acceptance := ⟨o.id, o.rideRequestId, p.userId, r.riderId, o.offeredFare, uuid⟩
  obtain ⟨t, db', hu⟩ := RideTables.acceptBatch_isOk (a := a) ⟨o, ho, rfl⟩
    ⟨r, h.request, hreq.symm⟩ fun t ht =>
      ⟨huuid t ht, fun heq => hfree t ht (heq.trans hreq)⟩
  have he := RideTables.acceptBatch_effect hu
  have hx : Backend.exec cfg (.acceptBatch a) w.shared =
      .ok (t, { w.shared with tables := db' }) :=
    Backend.onTables_of_ok (f := fun db => db.acceptBatch a) hu
  refine .perform_bind hx (.bind ?_)
  refine (Call.Returns.all (K := fun w' => tablesOf w' = db')
    (fun id _ w' hw' => cancelScheduledExpiry_returns id hw') rfl).mono fun _ w' hw' => ?_
  refine .perform_bind rfl (.done ?_)
  have hr := he.requests.mem h.request
  rw [Acceptance.onRequest, if_pos hreq.symm] at hr
  have ht : a.trip.terms = (uuid, r.id, p.userId, r.riderId, fare) := by
    rw [← hreq, ← hfare]
    rfl
  exact hw'.symm ▸ ⟨a.trip, he.trips.mem_new, ht, rfl, _, hr, rfl, rfl⟩

section Trip
variable {t : Trip} (ht : t ∈ (tablesOf w).trips)
  (hr : ∃ r ∈ (tablesOf w).rideRequests, r.id = t.rideRequestId)
include ht

private theorem findOwnedByDriver_returns :
    (TripsService.findOwnedByDriver t.id t.driverId).Returns (rideSystem cfg) n i
      (fun x w' => x = t ∧ w'.shared = w.shared) w :=
  .perform_bind rfl (.required_bind (RideTables.findTrip_of_mem ht) (.ensure_bind rfl
    (.done ⟨rfl, rfl⟩)))

/-- A move of a trip takes its request along. -/
private theorem TripUpdate.Effect.tripAt {u : TripUpdate} {onTrip : Trip → Trip}
    (status : TripStatus) {t₀ : Trip} {db' : RideTables}
    (he : u.Effect onTrip status.onRequest (tablesOf w) t₀ db')
    (hterms : (onTrip t).terms = t.terms) (hst : (onTrip t).status = status)
    (hreq : t.rideRequestId = u.rideRequestId)
    (hr : ∃ r ∈ (tablesOf w).rideRequests, r.id = t.rideRequestId) : db'.TripAt t status := by
  obtain ⟨r, hr, hid⟩ := hr
  refine ⟨_, he.trips.mem ht, hterms, hst, _, he.requests.mem hr, ?_, ?_⟩
  · exact (RideRequest.identity_eq.mp (u.onRequest_identity _ r)).1.trans hid
  · rw [u.onRequest_status, if_pos (hid.trans hreq)]

include hr

theorem TripsService.start_reaches (hst : t.status = .matched) :
    (TripsService.start cfg t.id t.driverId).Reaches (rideSystem cfg) n i
      (fun w' => (tablesOf w').TripAt t .started) w := by
  refine .bind ((findOwnedByDriver_returns ht).mono ?_)
  rintro x w₁ ⟨rfl, hw₁⟩
  refine .ensure_bind hst (.perform_bind rfl ?_)
  let u : TripUpdate := ⟨x.id, x.rideRequestId, w₁.shared.clock⟩
  obtain ⟨t', db', hu⟩ : ∃ t' db', (tablesOf w).startBatch u = .ok (t', db') :=
    RideTables.startBatch_isOk ⟨x, ht, rfl⟩ hr
  have hx : Backend.exec cfg (.startBatch u) w₁.shared =
      .ok (t', { w₁.shared with tables := db' }) :=
    Backend.onTables_of_ok (f := fun db => db.startBatch u) (hw₁ ▸ hu)
  refine .perform_bind hx (.perform_bind rfl (.ofExcept ?_))
  exact (RideTables.startBatch_effect hu).tripAt ht .started (u.startTrip_terms x)
    (by rw [u.startTrip_status, if_pos rfl]) rfl hr

theorem TripsService.complete_reaches (hst : t.status = .started) :
    (TripsService.complete cfg t.id t.driverId).Reaches (rideSystem cfg) n i
      (fun w' => (tablesOf w').TripAt t .completed) w := by
  refine .bind ((findOwnedByDriver_returns ht).mono ?_)
  rintro x w₁ ⟨rfl, hw₁⟩
  refine .ensure_bind hst (.perform_bind rfl ?_)
  let u : TripUpdate := ⟨x.id, x.rideRequestId, w₁.shared.clock⟩
  obtain ⟨t', db', hu⟩ : ∃ t' db', (tablesOf w).completeBatch u = .ok (t', db') :=
    RideTables.completeBatch_isOk ⟨x, ht, rfl⟩ hr
  have hx : Backend.exec cfg (.completeBatch u) w₁.shared =
      .ok (t', { w₁.shared with tables := db' }) :=
    Backend.onTables_of_ok (f := fun db => db.completeBatch u) (hw₁ ▸ hu)
  refine .perform_bind hx (.perform_bind rfl (.ofExcept ?_))
  exact (RideTables.completeBatch_effect hu).tripAt ht .completed
    (u.completeTrip_terms x) (by rw [u.completeTrip_status, if_pos rfl]) rfl hr

end Trip

theorem RideRequestsService.cancel_reaches {r : RideRequest}
    (hr : r ∈ (tablesOf w).rideRequests)
    (hst : r.status = .pending ∨ r.status = .matched) (reason : Option String) :
    (RideRequestsService.cancel cfg r.id r.riderId reason).Reaches (rideSystem cfg) n i
      (fun w' => ∃ r' ∈ (tablesOf w').rideRequests, r'.id = r.id ∧ r'.status = .cancelled)
      w := by
  have hfind : (tablesOf w).findRideRequestWithOffers r.id = some ⟨r,
      ((tablesOf w).rideOffers.findMany fun o => o.rideRequestId = r.id).filterMap
        (tablesOf w).withDriver,
      (tablesOf w).trips.find? fun t => t.rideRequestId = r.id⟩ := by
    rw [RideTables.findRideRequestWithOffers, RideTables.findRideRequest_of_mem hr]
    rfl
  refine .perform_bind rfl (.required_bind hfind ?_)
  refine .ensure_bind (Or.inl rfl) (.ensure_bind hst (.perform_bind rfl ?_))
  let c : Cancellation := ⟨r.id, reason, w.shared.clock,
    ((tablesOf w).trips.find? fun t => t.rideRequestId = r.id).map fun t => t.id⟩
  obtain ⟨r', db', hu⟩ : ∃ r' db', (tablesOf w).cancelBatch c = .ok (r', db') :=
    RideTables.cancelBatch_isOk ⟨r, hr, rfl⟩ fun id hid => by
      obtain ⟨t, ht, rfl⟩ := Option.map_eq_some_iff.mp hid
      exact ⟨t, (Table.find?_some ht).1, rfl⟩
  have hx : Backend.exec cfg (.cancelBatch c) w.shared =
      .ok (r', { w.shared with tables := db' }) :=
    Backend.onTables_of_ok (f := fun db => db.cancelBatch c) hu
  refine .perform_bind hx (.perform_bind rfl (.ofExcept ?_))
  have hmem := (RideTables.cancelBatch_effect hu).requests.mem hr
  exact ⟨_, hmem, (RideRequest.identity_eq.mp (c.onRequest_identity r)).1,
    by rw [c.onRequest_status, if_pos rfl]⟩

end Calls

/-- Starting and completing, by the driver. -/
def Invocation.OfDriver (driverUserId : Id) : Invocation → Prop
  | .start _ id | .complete _ id => id = driverUserId
  | _ => False

/-- Bidding and accepting, starting and completing, by the two parties. -/
def Invocation.OfParties (riderId driverUserId : Id) : Invocation → Prop
  | .submitOffer id _ _ _ | .start _ id | .complete _ id => id = driverUserId
  | .acceptOffer id _ _ => id = riderId
  | _ => False

theorem Invocation.OfDriver.ofParties {riderId driverUserId : Id} (i : Invocation)
    (h : i.OfDriver driverUserId) : i.OfParties riderId driverUserId := by
  cases i <;> first | exact h | cases h

/-- What can still be brought about in a pool: a pending request can be completed
with any driver at any fare, a trip that has not ended by its driver, and a request
that is pending or matched can be cancelled by its rider. -/
structure Unstuck (cfg : Config) (p : RidePool) : Prop where
  request : ∀ r ∈ (tablesOf p.world).rideRequests, r.status = .pending →
    ∀ d ∈ (tablesOf p.world).driverProfiles, ∀ fare,
      p.Attains (rideSystem cfg) (Invocation.OfParties r.riderId d.userId) fun w =>
        ∃ id, (tablesOf w).TripAt
          ⟨id, r.id, d.userId, r.riderId, fare, .matched, none, none, none⟩ .completed
  trip : ∀ t ∈ (tablesOf p.world).trips, t.status = .matched ∨ t.status = .started →
    p.Attains (rideSystem cfg) (Invocation.OfDriver t.driverId) fun w =>
      (tablesOf w).TripAt t .completed
  cancel : ∀ r ∈ (tablesOf p.world).rideRequests, r.status = .pending ∨ r.status = .matched →
    ∀ reason, p.Attains (rideSystem cfg) (fun i => i = .cancel r.id r.riderId reason) fun w =>
      ∃ r' ∈ (tablesOf w).rideRequests, r'.id = r.id ∧ r'.status = .cancelled

section Attains
variable {cfg : Config} {p : RidePool}

/-- Pending requests stay unmatched beside the records of the run. -/
theorem progress_discipline (cfg : Config) :
    Discipline (rideSystem cfg) (fun w => Recorded w ∧ (tablesOf w).PendingUnmatched) Evolves
      (Issued Recorded Evolves) :=
  (ride_discipline cfg).also fun hR hK _ hx => pendingUnmatched_commit hR hK hx

private abbrev Running (cfg : Config) (p : RidePool) : Prop :=
  p.Sound (rideSystem cfg) (fun w => Recorded w ∧ (tablesOf w).PendingUnmatched) Evolves
    (Issued Recorded Evolves)

/-- The request of a trip is recorded. -/
private theorem Running.request (h : Running cfg p) {t : Trip}
    (ht : t ∈ (tablesOf p.world).trips) :
    ∃ r ∈ (tablesOf p.world).rideRequests, r.id = t.rideRequestId :=
  (h.1.1.trip_request t ht).imp fun _ hr => ⟨hr.1, hr.2.1⟩

private theorem TripAt.congr {db : RideTables} {t t' : Trip} {status : TripStatus}
    (hterms : t'.terms = t.terms) (h : db.TripAt t' status) : db.TripAt t status := by
  obtain ⟨x, hx, hxt, hst, r, hr, hid, hrst⟩ := h
  exact ⟨x, hx, hxt.trans hterms, hst, r, hr, hid.trans (Trip.terms_eq.mp hterms).2.1, hrst⟩

private theorem attains_of_started (h : Running cfg p) {t : Trip}
    (ht : (tablesOf p.world).TripAt t .started) :
    p.Attains (rideSystem cfg) (Invocation.OfDriver t.driverId) fun w =>
      (tablesOf w).TripAt t .completed := by
  obtain ⟨x, hx, hterms, hst, -⟩ := ht
  have hdriver : x.driverId = t.driverId := (Trip.terms_eq.mp hterms).2.2.1
  exact .after (i := .complete x.id x.driverId) hdriver
    (.void (TripsService.complete_reaches hx (Running.request h hx) hst))
    fun hdone => .now (TripAt.congr hterms hdone)

private theorem attains_of_matched (h : Running cfg p) {t : Trip}
    (ht : (tablesOf p.world).TripAt t .matched) :
    p.Attains (rideSystem cfg) (Invocation.OfDriver t.driverId) fun w =>
      (tablesOf w).TripAt t .completed := by
  obtain ⟨x, hx, hterms, hst, -⟩ := ht
  have hdriver : x.driverId = t.driverId := (Trip.terms_eq.mp hterms).2.2.1
  exact .after (i := .start x.id x.driverId) hdriver
    (.void (TripsService.start_reaches hx (Running.request h hx) hst))
    fun hstarted => attains_of_started ((progress_discipline cfg).sound_serve h _)
      (TripAt.congr hterms hstarted)

private theorem attains_of_offered (h : Running cfg p) {r : RideRequest} {d : DriverProfile}
    {fare : Fare} (ho : (tablesOf p.world).Offered r d fare) :
    p.Attains (rideSystem cfg) (Invocation.OfParties r.riderId d.userId) fun w =>
      ∃ id, (tablesOf w).TripAt
        ⟨id, r.id, d.userId, r.riderId, fare, .matched, none, none, none⟩ .completed := by
  obtain ⟨o, hom, hreq, hdriver, hfare, host⟩ := ho.offer
  obtain ⟨uuid, huuid⟩ := exists_unused ((tablesOf p.world).trips.rows.map fun t => t.id)
  exact .next (i := .acceptOffer r.riderId o.id uuid) rfl
    (.void (OffersService.acceptOffer_returns ho (h.1.2 r ho.request ho.pending)
      (fun t ht hid => huuid (List.mem_map.mpr ⟨t, ht, hid⟩)) hom hreq hdriver hfare host))
    fun hmatched => (attains_of_matched ((progress_discipline cfg).sound_serve h _) hmatched).mono
      Invocation.OfDriver.ofParties fun _ hdone => ⟨uuid, hdone⟩

end Attains

/-- No interleaving of calls, finished, failed or in flight, leaves a ride stuck; the calls
that lead on commit what they write, whether or not they can answer in the end. -/
theorem rides_progress (cfg : Config) (ms : List RideMove) :
    Unstuck cfg (ridePool.run (rideSystem cfg) ms) := by
  have h : Running cfg (ridePool.run (rideSystem cfg) ms) :=
    (progress_discipline cfg).sound_run (Discipline.sound_init _ ⟨recorded_init,
      fun r hr => absurd hr (Table.not_mem_empty r)⟩) ms
  generalize ridePool.run (rideSystem cfg) ms = p at h
  refine ⟨fun r hr hst d hd fare => ?_, fun t ht hst => ?_, fun r hr hst reason => ?_⟩
  · obtain ⟨uuid, huuid⟩ := exists_unused
      ((tablesOf p.world).rideOffers.rows.map fun o => o.id)
    exact .next (i := .submitOffer d.userId r.id fare uuid) rfl
      (.void (OffersService.submitOffer_returns hd hr hst
        (fun o ho hid => huuid (List.mem_map.mpr ⟨o, ho, hid⟩)) fare))
      fun ho => attains_of_offered ((progress_discipline cfg).sound_serve h _) ho
  · rcases hst with hst | hst
    · exact .after (i := .start t.id t.driverId) rfl
        (.void (TripsService.start_reaches ht (Running.request h ht) hst))
        fun hstarted => attains_of_started ((progress_discipline cfg).sound_serve h _) hstarted
    · exact .after (i := .complete t.id t.driverId) rfl
        (.void (TripsService.complete_reaches ht (Running.request h ht) hst))
        fun hdone => .now hdone
  · exact .after (i := .cancel r.id r.riderId reason) rfl
      (.void (RideRequestsService.cancel_reaches hr hst reason)) fun hdone => .now hdone

end Reedr
