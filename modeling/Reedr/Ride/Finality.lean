import Reedr.Ride.History

/-!
# Finished rides under interleaved calls

The transition table of rides and trips is tested on an earlier read and not
repeated by the writes. This module states what a step may do to a finished ride
and determines, statement by statement, what the write must find for it.
-/

namespace Reedr
open Relational Interleaving

/-- A ride request that no call may move any more. -/
def RideRequestStatus.finished (status : RideRequestStatus) : Prop :=
  status = .completed ∨ status = .cancelled

/-- A trip that no call may move any more. -/
def TripStatus.finished (status : TripStatus) : Prop :=
  status = .completed ∨ status = .cancelled

instance (status : RideRequestStatus) : Decidable status.finished :=
  inferInstanceAs (Decidable (_ ∨ _))

instance (status : TripStatus) : Decidable status.finished :=
  inferInstanceAs (Decidable (_ ∨ _))

/-- The moves of the transition table. -/
inductive TripStatus.Moves : TripStatus → TripStatus → Prop where
  | start : Moves .matched .started
  | complete : Moves .started .completed
  | cancel : Moves .matched .cancelled

/-- What a step may do to a trip: nothing to a finished one's status and times,
and to the status of any other only a move of the table. -/
structure Trip.Proceeds (t t' : Trip) : Prop where
  same_id : t'.id = t.id
  frozen : t.status.finished →
    t'.status = t.status ∧ t'.startedAt = t.startedAt ∧ t'.endedAt = t.endedAt
  moves : t'.status = t.status ∨ t.status.Moves t'.status

/-- Finished rides stay finished from one state to the next. -/
structure RideTables.KeepsFinished (db db' : RideTables) : Prop where
  requests : ∀ r ∈ db.rideRequests, r.status.finished →
    ∃ r' ∈ db'.rideRequests, r'.id = r.id ∧ r'.status = r.status
  trips : ∀ t ∈ db.trips, ∃ t' ∈ db'.trips, t.Proceeds t'

/-- What the write of each call must find for finished rides to stay finished.
* An acceptance and a start find a request that is not finished; a cancellation
  finds one that is not COMPLETED, a completion one that is not CANCELLED.
* A cancellation finds its trip MATCHED or already CANCELLED, a start finds it
  MATCHED or already STARTED, and a completion does not find it CANCELLED, nor
  COMPLETED at another time. -/
def MeetsStatus (w : RideWorld) (_ : Invocation) : Stmt → Prop
  | .acceptBatch a =>
      ∀ r ∈ (tablesOf w).rideRequests, r.id = a.rideRequestId → ¬ r.status.finished
  | .cancelBatch c =>
      (∀ r ∈ (tablesOf w).rideRequests, r.id = c.rideRequestId → r.status ≠ .completed) ∧
        ∀ t ∈ (tablesOf w).trips, c.tripId = some t.id →
          t.status = .matched ∨ t.status = .cancelled
  | .startBatch u =>
      (∀ r ∈ (tablesOf w).rideRequests, r.id = u.rideRequestId → ¬ r.status.finished) ∧
        ∀ t ∈ (tablesOf w).trips, t.id = u.tripId → t.status = .matched ∨ t.status = .started
  | .completeBatch u =>
      (∀ r ∈ (tablesOf w).rideRequests, r.id = u.rideRequestId → r.status ≠ .cancelled) ∧
        ∀ t ∈ (tablesOf w).trips, t.id = u.tripId →
          t.status ≠ .cancelled ∧ (t.status = .completed → t.endedAt = some u.now)
  | _ => True

theorem Trip.Proceeds.refl (t : Trip) : t.Proceeds t :=
  ⟨rfl, fun _ => ⟨rfl, rfl, rfl⟩, Or.inl rfl⟩

section Rewriting
variable {db db' : RideTables}

/-- Requests that get the status `status` wherever `p` holds keep their finished
ones when those had it already. -/
private theorem requests_kept_iff {f : RideRequest → RideRequest} {id : Id}
    {status : RideRequestStatus} (hr : db.rideRequests.Rewrites f db'.rideRequests)
    (hf : ∀ r, (f r).identity = r.identity)
    (hstatus : ∀ r, (f r).status = if r.id = id then status else r.status) :
    (∀ r ∈ db.rideRequests, r.status.finished →
        ∃ r' ∈ db'.rideRequests, r'.id = r.id ∧ r'.status = r.status) ↔
      ∀ r ∈ db.rideRequests, r.id = id → r.status.finished → r.status = status := by
  have hid (r : RideRequest) : (f r).id = r.id := (RideRequest.identity_eq.mp (hf r)).1
  constructor
  · intro h r hrm hrid hfin
    obtain ⟨r', hr', hid', hst⟩ := h r hrm hfin
    obtain rfl := RideRequest.eq_of_id hr' (hr.mem hrm) (hid'.trans (hid r).symm)
    rw [← hst, hstatus, if_pos hrid]
  · intro h r hrm hfin
    refine ⟨f r, hr.mem hrm, hid r, ?_⟩
    rw [hstatus]
    split
    · next hrid => exact (h r hrm hrid hfin).symm
    · rfl

private theorem trips_kept_iff {g : Trip → Trip} (ht : db.trips.Rewrites g db'.trips)
    (hg : ∀ t, (g t).terms = t.terms) :
    (∀ t ∈ db.trips, ∃ t' ∈ db'.trips, t.Proceeds t') ↔ ∀ t ∈ db.trips, t.Proceeds (g t) := by
  constructor
  · intro h t htm
    obtain ⟨t', ht', hp⟩ := h t htm
    rwa [Trip.eq_of_id ht' (ht.mem htm) (hp.same_id.trans (Trip.terms_eq.mp (hg t)).1.symm)] at hp
  · exact fun h t htm => ⟨g t, ht.mem htm, h t htm⟩

end Rewriting

section Rows

theorem Cancellation.proceeds_iff (c : Cancellation) (t : Trip) :
    t.Proceeds (c.onTrip t) ↔
      (c.tripId = some t.id → t.status = .matched ∨ t.status = .cancelled) := by
  by_cases hid : c.tripId = some t.id
  · rw [Cancellation.onTrip, if_pos hid]
    constructor
    · rintro ⟨-, -, hm⟩ -
      cases hst : t.status <;> simp [hst] at hm ⊢ <;> cases hm
    · intro h
      rcases h hid with hst | hst
      · exact ⟨rfl, fun hf => by simp [hst, TripStatus.finished] at hf,
          Or.inr (hst ▸ TripStatus.Moves.cancel)⟩
      · exact ⟨rfl, fun _ => ⟨hst.symm, rfl, rfl⟩, Or.inl hst.symm⟩
  · rw [Cancellation.onTrip, if_neg hid]
    exact iff_of_true (.refl t) fun h => absurd h hid

theorem TripUpdate.start_proceeds_iff (u : TripUpdate) (t : Trip) :
    t.Proceeds (u.startTrip t) ↔
      (t.id = u.tripId → t.status = .matched ∨ t.status = .started) := by
  by_cases hid : t.id = u.tripId
  · rw [TripUpdate.startTrip, if_pos hid]
    constructor
    · rintro ⟨-, -, hm⟩ -
      cases hst : t.status <;> simp [hst] at hm ⊢ <;> cases hm
    · intro h
      rcases h hid with hst | hst
      · exact ⟨rfl, fun hf => by simp [hst, TripStatus.finished] at hf,
          Or.inr (hst ▸ TripStatus.Moves.start)⟩
      · exact ⟨rfl, fun hf => by simp [hst, TripStatus.finished] at hf, Or.inl hst.symm⟩
  · rw [TripUpdate.startTrip, if_neg hid]
    exact iff_of_true (.refl t) fun h => absurd h hid

/-- The trip of a completion has left MATCHED, so only a finished one is in the way. -/
theorem TripUpdate.complete_proceeds_iff (u : TripUpdate) {t : Trip}
    (hleft : t.id = u.tripId → t.status ≠ .matched) :
    t.Proceeds (u.completeTrip t) ↔ (t.id = u.tripId →
      t.status ≠ .cancelled ∧ (t.status = .completed → t.endedAt = some u.now)) := by
  by_cases hid : t.id = u.tripId
  · rw [TripUpdate.completeTrip, if_pos hid]
    constructor
    · rintro ⟨-, hf, hm⟩ -
      constructor
      · intro hst
        have := (hf (Or.inr hst)).1
        simp [hst] at this
      · intro hst
        exact (hf (Or.inl hst)).2.2.symm
    · intro h
      obtain ⟨hne, hend⟩ := h hid
      cases hst : t.status with
      | matched => exact absurd hst (hleft hid)
      | started =>
          exact ⟨rfl, fun hf => by simp [hst, TripStatus.finished] at hf,
            Or.inr (hst ▸ TripStatus.Moves.complete)⟩
      | completed => exact ⟨rfl, fun _ => ⟨hst.symm, rfl, (hend hst).symm⟩, Or.inl hst.symm⟩
      | cancelled => exact absurd hst hne
  · rw [TripUpdate.completeTrip, if_neg hid]
    exact iff_of_true (.refl t) fun h => absurd h hid

end Rows

namespace RideTables.KeepsFinished
variable {db db' : RideTables}

theorem refl (db : RideTables) : db.KeepsFinished db :=
  ⟨fun r hr _ => ⟨r, hr, rfl, rfl⟩, fun t ht => ⟨t, ht, .refl t⟩⟩

/-- Statements on other tables, and insertions, leave finished rides alone. -/
theorem of_mem (hr : ∀ r ∈ db.rideRequests, r ∈ db'.rideRequests)
    (ht : ∀ t ∈ db.trips, t ∈ db'.trips) : db.KeepsFinished db' :=
  ⟨fun r hrm _ => ⟨r, hr r hrm, rfl, rfl⟩, fun t htm => ⟨t, ht t htm, .refl t⟩⟩

end RideTables.KeepsFinished

section Commit
variable {cfg : Config} {w : RideWorld} {n : Nat} {i : Invocation} {o : Stmt} {b : o.Res}
  {s : Backend}

private theorem keepsFinished_accept {a : Acceptance} {t : Trip}
    (he : a.Effect (tablesOf w) t s.tables) :
    (tablesOf w).KeepsFinished s.tables ↔ MeetsStatus w i (.acceptBatch a) := by
  have hreq := requests_kept_iff he.requests a.onRequest_identity a.onRequest_status
  constructor
  · intro h r hr hid hfin
    have := hreq.mp h.requests r hr hid hfin
    simp [this, RideRequestStatus.finished] at hfin
  · intro h
    exact ⟨hreq.mpr fun r hr hid hfin => absurd hfin (h r hr hid),
      fun t ht => ⟨t, he.trips.mem_old ht, .refl t⟩⟩

private theorem keepsFinished_cancel {c : Cancellation} {r : RideRequest}
    (he : c.Effect (tablesOf w) r s.tables) :
    (tablesOf w).KeepsFinished s.tables ↔ MeetsStatus w i (.cancelBatch c) := by
  have hreq := requests_kept_iff he.requests c.onRequest_identity c.onRequest_status
  have htrip := trips_kept_iff he.trips c.onTrip_terms
  constructor
  · intro h
    refine ⟨fun r hr hid hst => ?_, fun t ht => (c.proceeds_iff t).mp (htrip.mp h.trips t ht)⟩
    have := hreq.mp h.requests r hr hid (Or.inl hst)
    simp [hst] at this
  · rintro ⟨hr, ht⟩
    refine ⟨hreq.mpr fun r hrm hid hfin => ?_,
      htrip.mpr fun t htm => (c.proceeds_iff t).mpr (ht t htm)⟩
    exact hfin.resolve_left (hr r hrm hid)

private theorem keepsFinished_start {u : TripUpdate} {t : Trip}
    (he : u.Effect u.startTrip .inProgress (tablesOf w) t s.tables) :
    (tablesOf w).KeepsFinished s.tables ↔ MeetsStatus w i (.startBatch u) := by
  have hreq := requests_kept_iff he.requests (u.onRequest_identity _) (u.onRequest_status _)
  have htrip := trips_kept_iff he.trips u.startTrip_terms
  constructor
  · intro h
    refine ⟨fun r hr hid hfin => ?_,
      fun t ht => (u.start_proceeds_iff t).mp (htrip.mp h.trips t ht)⟩
    have := hreq.mp h.requests r hr hid hfin
    simp [this, RideRequestStatus.finished] at hfin
  · rintro ⟨hr, ht⟩
    exact ⟨hreq.mpr fun r hrm hid hfin => absurd hfin (hr r hrm hid),
      htrip.mpr fun t htm => (u.start_proceeds_iff t).mpr (ht t htm)⟩

private theorem keepsFinished_complete {u : TripUpdate} {t : Trip}
    (hJ : ∀ t ∈ (tablesOf w).trips, t.id = u.tripId → t.status ≠ .matched)
    (he : u.Effect u.completeTrip .completed (tablesOf w) t s.tables) :
    (tablesOf w).KeepsFinished s.tables ↔ MeetsStatus w i (.completeBatch u) := by
  have hreq := requests_kept_iff he.requests (u.onRequest_identity _) (u.onRequest_status _)
  have htrip := trips_kept_iff he.trips u.completeTrip_terms
  constructor
  · intro h
    refine ⟨fun r hr hid hst => ?_,
      fun t ht => (u.complete_proceeds_iff (hJ t ht)).mp (htrip.mp h.trips t ht)⟩
    have := hreq.mp h.requests r hr hid (Or.inr hst)
    simp [hst] at this
  · rintro ⟨hr, ht⟩
    refine ⟨hreq.mpr fun r hrm hid hfin => ?_,
      htrip.mpr fun t htm => (u.complete_proceeds_iff (hJ t htm)).mpr (ht t htm)⟩
    exact hfin.resolve_right (hr r hrm hid)

/-- A statement keeps finished rides finished exactly when it meets the statuses
its call had tested, as far as these matter. -/
theorem keepsFinished_commit_iff (hJ : Issued Recorded Evolves w i o)
    (hx : Backend.exec cfg o w.shared = .ok (b, s)) :
    (tablesOf w).KeepsFinished s.tables ↔ MeetsStatus w i o := by
  have hwrote := Backend.exec_wrote hx
  have kept (hr : s.tables.rideRequests = (tablesOf w).rideRequests)
      (ht : s.tables.trips = (tablesOf w).trips) : (tablesOf w).KeepsFinished s.tables :=
    .of_mem (fun _ h => hr ▸ h) fun _ h => ht ▸ h
  generalize htb : s.tables = db' at hwrote
  cases hwrote with
  | nothing ho =>
      refine iff_of_true (.refl _) ?_
      cases o <;> trivial
  | createDriverProfile he =>
      subst htb
      exact iff_of_true (kept he.requests he.trips) trivial
  | updateDriverProfile ho he hf =>
      subst htb
      refine iff_of_true (kept he.requests he.trips) ?_
      cases o <;> trivial
  | createRideRequest he =>
      subst htb
      exact iff_of_true (.of_mem (fun _ h => he.requests.mem_old h) fun _ h => he.trips ▸ h) trivial
  | upsertOffer he =>
      subst htb
      exact iff_of_true (kept he.requests he.trips) trivial
  | acceptBatch he =>
      subst htb
      exact keepsFinished_accept he
  | expireOffer he =>
      subst htb
      exact iff_of_true (kept he.requests he.trips) trivial
  | expireDriverOffers he =>
      subst htb
      exact iff_of_true (kept he.requests he.trips) trivial
  | cancelBatch he =>
      subst htb
      exact keepsFinished_cancel he
  | startBatch he =>
      subst htb
      exact keepsFinished_start he
  | completeBatch he =>
      subst htb
      exact keepsFinished_complete
        (fun t ht => (tripKnown_of_seen hJ ht).2 (by decide)) he

end Commit

/-- In a run, finished rides stay finished at every step if and only if every
acceptance, cancellation, start and completion meets a suitable status. -/
theorem finished_rides_stay_iff (cfg : Config) (ms : List RideMove) :
    AllSteps (rideSystem cfg) (fun w w' => (tablesOf w).KeepsFinished (tablesOf w')) ridePool ms ↔
      AllCommits (rideSystem cfg) MeetsStatus ridePool ms :=
  (ride_discipline cfg).allSteps_iff (K := fun _ => True) (fun _ _ => .refl _)
    (fun _ => trivial) (fun _ hJ _ hx => keepsFinished_commit_iff hJ hx) (ridePool_sound cfg [])
    trivial ms

/-- A rider cancels a matched ride; before the cancellation commits, the driver
starts and completes the trip. -/
def delayedCancel : List RideMove :=
  [.invoke (.verifyDriver "driver" "application" "profile"), .advance 0,
    .invoke (.create "rider" ⟨6, 3, 7, 4, 1500⟩ "request"), .advance 1,
    .invoke (.submitOffer "driver" "request" 1500 "offer"), .advance 2, .advance 2, .advance 2,
    .invoke (.acceptOffer "rider" "offer" "trip"), .advance 3, .advance 3, .advance 3,
    .invoke (.cancel "request" "rider" none), .advance 4, .advance 4,
    .invoke (.start "trip" "driver"), .advance 5, .advance 5, .advance 5,
    .invoke (.complete "trip" "driver"), .advance 6, .advance 6, .advance 6]

/-- Its batch then turns the COMPLETED request and trip into CANCELLED ones. -/
theorem not_keepsFinished_delayedCancel :
    ¬ (tablesOf (ridePool.run (rideSystem .default) delayedCancel).world).KeepsFinished
      (tablesOf (ridePool.run (rideSystem .default) (delayedCancel ++ [.advance 4])).world) :=
  fun h => absurd h.requests (by decide +kernel)

end Reedr
