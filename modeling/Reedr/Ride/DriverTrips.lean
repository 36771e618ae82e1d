import Reedr.Ride.Consistency

/-!
# A driver's live trips

The gateway keeps one active trip per driver, and an acceptance creates the trip
without a look at the driver's others: its guards are about the request and the
offer. A driver with pending offers on two requests is thus matched twice. This
module proves that acceptance to be the only way there.
-/

namespace Reedr
open Relational Interleaving

/-- A trip that has been agreed on and is not over. -/
def TripStatus.live : TripStatus → Bool
  | .matched | .started => true
  | .completed | .cancelled => false

/-- No driver has two live trips. -/
def RideTables.OneLiveTrip (db : RideTables) : Prop :=
  ∀ t ∈ db.trips, ∀ u ∈ db.trips, t.driverId = u.driverId →
    t.status.live = true → u.status.live = true → t = u

instance (db : RideTables) : Decidable db.OneLiveTrip :=
  inferInstanceAs (Decidable (∀ t ∈ db.trips, ∀ u ∈ db.trips, t.driverId = u.driverId →
    t.status.live = true → u.status.live = true → t = u))

/-- An offer is accepted while its driver has no live trip. -/
def AcceptsIdleDriver (w : RideWorld) (_ : Invocation) : Stmt → Prop
  | .acceptBatch a => ∀ t ∈ (tablesOf w).trips, t.driverId = a.driverUserId → t.status.live = false
  | _ => True

namespace RideTables.OneLiveTrip
variable {db db' : RideTables}

theorem congr (h : db.OneLiveTrip) (ht : db'.trips = db.trips) : db'.OneLiveTrip := by
  rwa [OneLiveTrip, ht]

/-- An update that revives no trip and changes no driver. -/
private theorem rewrite {g : Trip → Trip} (h : db.OneLiveTrip)
    (hg : db.trips.Rewrites g db'.trips) (hterms : ∀ t, (g t).terms = t.terms)
    (hlive : ∀ t ∈ db.trips, (g t).status.live = true → t.status.live = true) :
    db'.OneLiveTrip := by
  intro t' ht' u' hu' hdriver htlive hulive
  obtain ⟨t, ht, rfl⟩ := (hg t').mp ht'
  obtain ⟨u, hu, rfl⟩ := (hg u').mp hu'
  have htu : t.driverId = u.driverId := by
    rw [← (Trip.terms_eq.mp (hterms t)).2.2.1, hdriver, (Trip.terms_eq.mp (hterms u)).2.2.1]
  rw [h t ht u hu htu (hlive t ht htlive) (hlive u hu hulive)]

/-- A new trip keeps to one per driver exactly when its driver has none. -/
private theorem acceptBatch_iff {a : Acceptance} {t : Trip} (h : db.OneLiveTrip)
    (he : a.Effect db t db') :
    db'.OneLiveTrip ↔ ∀ t ∈ db.trips, t.driverId = a.driverUserId → t.status.live = false := by
  constructor
  · intro h' u hu hdriver
    by_contra hlive
    have hlive : u.status.live = true := by simpa using hlive
    have hsame : u = a.trip :=
      h' u (he.trips.mem_old hu) a.trip he.trips.mem_new hdriver hlive rfl
    exact he.fresh u hu (congrArg Trip.rideRequestId hsame)
  · intro hidle u hu v hv hdriver hulive hvlive
    rcases (he.trips u).mp hu with hu | rfl
    · rcases (he.trips v).mp hv with hv | rfl
      · exact h u hu v hv hdriver hulive hvlive
      · rw [hidle u hu hdriver] at hulive
        exact nomatch hulive
    · rcases (he.trips v).mp hv with hv | rfl
      · rw [hidle v hv hdriver.symm] at hvlive
        exact nomatch hvlive
      · rfl

private theorem cancelBatch (h : db.OneLiveTrip) {c : Cancellation} {r : RideRequest}
    (he : c.Effect db r db') : db'.OneLiveTrip := by
  apply h.rewrite he.trips c.onTrip_terms
  intro t _ hlive
  unfold Cancellation.onTrip at hlive
  split at hlive
  · exact nomatch hlive
  · exact hlive

/-- The trip that `start` or `complete` moves was live before. -/
private theorem tripUpdate (h : db.OneLiveTrip) {u : TripUpdate} {t : Trip}
    {onTrip : Trip → Trip} {request : RideRequestStatus} {status : TripStatus}
    (he : u.Effect onTrip request db t db') (hterms : ∀ t, (onTrip t).terms = t.terms)
    (hstatus : ∀ t, (onTrip t).status = if t.id = u.tripId then status else t.status)
    (hread : ∃ t ∈ db.trips, t.id = u.tripId ∧ t.status.live = true) : db'.OneLiveTrip := by
  obtain ⟨x, hx, hxid, hxlive⟩ := hread
  apply h.rewrite he.trips hterms
  intro y hy hlive
  rw [hstatus] at hlive
  split at hlive
  · next hid => rwa [Trip.eq_of_id hy hx (hid.trans hxid.symm)]
  · exact hlive

end RideTables.OneLiveTrip

/-- A statement keeps to one live trip per driver exactly when it is not the
acceptance of an offer of a driver who has one. -/
theorem oneLiveTrip_commit_iff {cfg : Config} {I : RideWorld → Prop} {w : RideWorld}
    {i : Invocation} {o : Stmt} {b : o.Res} {s : Backend} (hJ : Issued I SameTables w i o)
    (h : (tablesOf w).OneLiveTrip) (hx : Backend.exec cfg o w.shared = .ok (b, s)) :
    s.tables.OneLiveTrip ↔ AcceptsIdleDriver w i o := by
  have hwrote := Backend.exec_wrote hx
  generalize htb : s.tables = db' at hwrote
  cases hwrote with
  | nothing ho =>
      refine iff_of_true h ?_
      cases o <;> trivial
  | createDriverProfile he => exact iff_of_true (h.congr he.trips) trivial
  | updateDriverProfile ho he hf =>
      refine iff_of_true (h.congr he.trips) ?_
      cases o <;> trivial
  | createRideRequest he => exact iff_of_true (h.congr he.trips) trivial
  | upsertOffer he => exact iff_of_true (h.congr he.trips) trivial
  | acceptBatch he => exact h.acceptBatch_iff he
  | expireOffer he => exact iff_of_true (h.congr he.trips) trivial
  | expireDriverOffers he => exact iff_of_true (h.congr he.trips) trivial
  | cancelBatch he => exact iff_of_true (h.cancelBatch he) trivial
  | @startBatch u _ _ _ he =>
      obtain ⟨t, ht, hid, -, hst, -⟩ := Seen.now hJ
      refine iff_of_true ?_ trivial
      exact h.tripUpdate he u.startTrip_terms u.startTrip_status ⟨t, ht, hid, by rw [hst]; rfl⟩
  | @completeBatch u _ _ _ he =>
      obtain ⟨t, ht, hid, -, hst, -⟩ := Seen.now hJ
      refine iff_of_true ?_ trivial
      exact h.tripUpdate he u.completeTrip_terms u.completeTrip_status
        ⟨t, ht, hid, by rw [hst]; rfl⟩

/-- In whole calls, one at a time, a driver has one live trip at most, in every
state on the way, if and only if each acceptance meets a driver without one. -/
theorem one_live_trip_iff (cfg : Config) (calls : List (Invocation × List Bool)) :
    (ridePool.serveAll (rideSystem cfg) calls).world.Always
        (fun w => (tablesOf w).OneLiveTrip) ↔
      (ridePool.serveAll (rideSystem cfg) calls).world.AllExecuted AcceptsIdleDriver := by
  have hinit : (tablesOf ridePool.world).OneLiveTrip :=
    fun t ht => absurd ht (Table.not_mem_empty t)
  exact Pool.serveAll_always_iff (I := fun _ => True) sameTables_reads.refl
    (fun i w _ => code_issued sameTables_reads i w) (fun _ _ _ => trivial)
    (fun _ hJ hK hx => oneLiveTrip_commit_iff hJ hK hx) trivial hinit calls

/-- Two riders accept offers of the same driver. -/
def doubleMatch : List (Invocation × List Bool) :=
  [(.verifyDriver "driver" "application" "profile", []),
    (.create "rider" ⟨6, 3, 7, 4, 1500⟩ "request", []),
    (.create "other rider" ⟨6, 3, 8, 5, 2000⟩ "other request", []),
    (.submitOffer "driver" "request" 1500 "offer", []),
    (.submitOffer "driver" "other request" 2000 "other offer", []),
    (.acceptOffer "rider" "offer" "trip", []),
    (.acceptOffer "other rider" "other offer" "other trip", [])]

/-- The driver is then MATCHED on both trips. -/
theorem not_oneLiveTrip_doubleMatch :
    ¬ (tablesOf (ridePool.serveAll (rideSystem .default) doubleMatch).world).OneLiveTrip := by
  decide +kernel

end Reedr
