import Reedr.Ride.History

/-!
# A ride request and its trip under interleaved calls

Every statement that moves one of the two moves the other with it, with one
exception: a cancellation whose read came before the trip existed writes the
request alone. This module states the agreement and proves that exception to be
the only way a run can lose it.
-/

namespace Reedr
open Relational Interleaving

/-- Request and trip agree: a CANCELLED request has no trip in another status,
and every trip belongs to a request in the corresponding one. -/
structure RideTables.Agree (db : RideTables) : Prop where
  cancelled : ∀ r ∈ db.rideRequests, r.status = .cancelled →
    ∀ t ∈ db.trips, t.rideRequestId = r.id →
      t.status ≠ .matched ∧ t.status ≠ .started ∧ t.status ≠ .completed
  belongs : ∀ t ∈ db.trips, ∃ r ∈ db.rideRequests,
    r.id = t.rideRequestId ∧ r.status = t.status.onRequest

instance (db : RideTables) : Decidable db.Agree :=
  decidable_of_iff
    ((∀ r ∈ db.rideRequests, r.status = .cancelled → ∀ t ∈ db.trips, t.rideRequestId = r.id →
        t.status ≠ .matched ∧ t.status ≠ .started ∧ t.status ≠ .completed) ∧
      ∀ t ∈ db.trips, ∃ r ∈ db.rideRequests,
        r.id = t.rideRequestId ∧ r.status = t.status.onRequest)
    ⟨fun h => ⟨h.1, h.2⟩, fun h => ⟨h.cancelled, h.belongs⟩⟩

namespace RideTables.Agree
variable {db db' : RideTables}

theorem congr (h : db.Agree) (hr : db'.rideRequests = db.rideRequests)
    (ht : db'.trips = db.trips) : db'.Agree := by
  constructor
  · rw [hr, ht]
    exact h.cancelled
  · rw [hr, ht]
    exact h.belongs

/-- The first half of the agreement follows from the second, the request of a
trip being unique. -/
theorem of_belongs (h : ∀ t ∈ db.trips, ∃ r ∈ db.rideRequests,
    r.id = t.rideRequestId ∧ r.status = t.status.onRequest) : db.Agree := by
  refine ⟨fun r hr hst t ht hreq => ?_, h⟩
  obtain ⟨r', hr', hid, hst'⟩ := h t ht
  obtain rfl := RideRequest.eq_of_id hr' hr (hid.trans hreq)
  rw [hst] at hst'
  cases hts : t.status <;> simp [hts, TripStatus.onRequest] at hst' ⊢

/-- Rewriting requests and trips in step keeps the agreement. -/
theorem rewrite {f : RideRequest → RideRequest} {g : Trip → Trip} (h : db.Agree)
    (hr : db.rideRequests.Rewrites f db'.rideRequests) (ht : db.trips.Rewrites g db'.trips)
    (hf : ∀ r, (f r).identity = r.identity) (hg : ∀ t, (g t).terms = t.terms)
    (hstep : ∀ r ∈ db.rideRequests, ∀ t ∈ db.trips, r.id = t.rideRequestId →
      r.status = t.status.onRequest → (f r).status = (g t).status.onRequest) : db'.Agree := by
  apply of_belongs
  intro t' ht'
  obtain ⟨t, htm, rfl⟩ := (ht t').mp ht'
  obtain ⟨r, hrm, hid, hst⟩ := h.belongs t htm
  refine ⟨f r, hr.mem hrm, ?_, hstep r hrm t htm hid hst⟩
  rw [(RideRequest.identity_eq.mp (hf r)).1, hid, (Trip.terms_eq.mp (hg t)).2.1]

end RideTables.Agree

/-- A cancellation that had read no trip finds none on its request when it
commits, or only one that is already CANCELLED. -/
def CancelsWithTrip (w : RideWorld) (_ : Invocation) : Stmt → Prop
  | .cancelBatch c => c.tripId = none → ∀ t ∈ (tablesOf w).trips,
      t.rideRequestId = c.rideRequestId → t.status = .cancelled
  | _ => True

section Commit
variable {cfg : Config} {w : RideWorld} {n : Nat} {i : Invocation} {o : Stmt} {b : o.Res}
  {s : Backend}

private theorem agree_cancel {c : Cancellation} {r : RideRequest} (h : (tablesOf w).Agree)
    (hJ : Seen Recorded Evolves w (CancelRead c i)) (he : c.Effect (tablesOf w) r s.tables) :
    s.tables.Agree ↔ CancelsWithTrip w i (.cancelBatch c) := by
  constructor
  · intro hA hnone t ht hreq
    have ht' : t ∈ s.tables.trips := by
      have := he.trips.mem ht
      rwa [Cancellation.onTrip, if_neg (by simp [hnone])] at this
    obtain ⟨r₀, hr₀, hid, -⟩ := he.result
    obtain ⟨r', hr', hid', hst'⟩ := hA.belongs t ht'
    have hc : (c.onRequest r₀).status = .cancelled := by
      rw [Cancellation.onRequest, if_pos hid]
    have hrr : (c.onRequest r₀).id = r'.id := by
      rw [(RideRequest.identity_eq.mp (c.onRequest_identity r₀)).1, hid, hid', hreq]
    rw [RideRequest.eq_of_id (he.requests.mem hr₀) hr' hrr, hst'] at hc
    cases hts : t.status <;> simp [hts, TripStatus.onRequest] at hc ⊢
  · intro hQ
    refine h.rewrite he.requests he.trips c.onRequest_identity c.onTrip_terms
      fun r hr t ht hid hst => ?_
    by_cases hreq : r.id = c.rideRequestId
    · have hcanc : (c.onTrip t).status = .cancelled := by
        cases hc : c.tripId with
        | none => simpa [Cancellation.onTrip, hc] using hQ hc t ht (hid.symm.trans hreq)
        | some id =>
            have htid := (cancelKnown_of_seen hJ hc ht).mpr (hid.symm.trans hreq)
            simp [Cancellation.onTrip, hc, htid]
      rw [hcanc, Cancellation.onRequest, if_pos hreq]
      rfl
    · have htrip : c.tripId ≠ some t.id := fun hc =>
        hreq (hid.trans ((cancelKnown_of_seen hJ hc ht).mp rfl))
      rwa [Cancellation.onRequest, if_neg hreq, Cancellation.onTrip, if_neg htrip]

private theorem agree_accept {a : Acceptance} {t : Trip} (h : (tablesOf w).Agree)
    (he : a.Effect (tablesOf w) t s.tables) : s.tables.Agree := by
  refine .of_belongs fun u hu => ?_
  rcases (he.trips u).mp hu with hu | rfl
  · obtain ⟨r, hr, hid, hst⟩ := h.belongs u hu
    have hne : r.id ≠ a.rideRequestId := fun hc => he.fresh u hu (hid.symm.trans hc)
    have hr' := he.requests.mem hr
    rw [Acceptance.onRequest, if_neg hne] at hr'
    exact ⟨r, hr', hid, hst⟩
  · obtain ⟨r, hr, hid⟩ := he.request_mem
    have hr' := he.requests.mem hr
    rw [Acceptance.onRequest, if_pos hid] at hr'
    exact ⟨_, hr', hid, rfl⟩

/-- Both batches on an existing trip move its request along. -/
private theorem agree_tripUpdate {u : TripUpdate} {t : Trip} {onTrip : Trip → Trip}
    (status : TripStatus) (h : (tablesOf w).Agree)
    (he : u.Effect onTrip status.onRequest (tablesOf w) t s.tables)
    (hterms : ∀ t, (onTrip t).terms = t.terms)
    (hstatus : ∀ t, (onTrip t).status = if t.id = u.tripId then status else t.status)
    (hJ : ∀ t ∈ (tablesOf w).trips, t.id = u.tripId ↔ t.rideRequestId = u.rideRequestId) :
    s.tables.Agree := by
  refine h.rewrite he.requests he.trips (u.onRequest_identity _) hterms
    fun r hr t ht hid hst => ?_
  rw [hstatus, TripUpdate.onRequest]
  by_cases hreq : r.id = u.rideRequestId
  · rw [if_pos hreq, if_pos ((hJ t ht).mpr (hid.symm.trans hreq))]
  · rw [if_neg hreq, if_neg fun hc => hreq (hid.trans ((hJ t ht).mp hc))]
    exact hst

/-- A statement keeps request and trip in step exactly when it is not a late
cancellation. -/
theorem agree_commit_iff (hJ : Issued Recorded Evolves w i o) (h : (tablesOf w).Agree)
    (hx : Backend.exec cfg o w.shared = .ok (b, s)) :
    s.tables.Agree ↔ CancelsWithTrip w i o := by
  have hwrote := Backend.exec_wrote hx
  generalize htb : s.tables = db' at hwrote
  cases hwrote with
  | nothing ho =>
      refine iff_of_true h ?_
      cases o <;> trivial
  | createDriverProfile he => exact iff_of_true (h.congr he.requests he.trips) trivial
  | updateDriverProfile ho he hf =>
      refine iff_of_true (h.congr he.requests he.trips) ?_
      cases o <;> trivial
  | createRideRequest he =>
      refine iff_of_true (.of_belongs fun t ht => ?_) trivial
      obtain ⟨r, hr, hrt⟩ := h.belongs t (he.trips ▸ ht)
      exact ⟨r, he.requests.mem_old hr, hrt⟩
  | upsertOffer he => exact iff_of_true (h.congr he.requests he.trips) trivial
  | acceptBatch he =>
      subst htb
      exact iff_of_true (agree_accept h he) trivial
  | expireOffer he => exact iff_of_true (h.congr he.requests he.trips) trivial
  | expireDriverOffers he => exact iff_of_true (h.congr he.requests he.trips) trivial
  | cancelBatch he =>
      subst htb
      exact agree_cancel h hJ he
  | @startBatch u _ _ _ he =>
      subst htb
      exact iff_of_true (agree_tripUpdate .started h he u.startTrip_terms
        u.startTrip_status fun t ht => (tripKnown_of_seen hJ ht).1) trivial
  | @completeBatch u _ _ _ he =>
      subst htb
      exact iff_of_true (agree_tripUpdate .completed h he u.completeTrip_terms
        u.completeTrip_status fun t ht => (tripKnown_of_seen hJ ht).1) trivial

end Commit

/-- A run keeps every request in step with its trip if and only if no
cancellation in it commits over a trip it had not seen. -/
theorem request_trip_agree_iff (cfg : Config) (ms : List RideMove) :
    (∀ k, (tablesOf (ridePool.run (rideSystem cfg) (ms.take k)).world).Agree) ↔
      AllCommits (rideSystem cfg) CancelsWithTrip ridePool ms := by
  have hinit : (tablesOf ridePool.world).Agree :=
    .of_belongs fun t ht => absurd ht (Table.not_mem_empty t)
  rw [← allSteps_reached_iff (K := fun w => (tablesOf w).Agree) hinit]
  exact (ride_discipline cfg).allSteps_iff (fun _ h => h) (fun h => h)
    (fun _ hJ hK hx => agree_commit_iff hJ hK hx) (ridePool_sound cfg []) hinit ms

/-- A rider cancels while accepting an offer from another device: the
cancellation reads the request, the acceptance commits, the cancellation commits. -/
def lateCancel : List RideMove :=
  [.invoke (.verifyDriver "driver" "application" "profile"), .advance 0,
    .invoke (.create "rider" ⟨6, 3, 7, 4, 1500⟩ "request"), .advance 1,
    .invoke (.submitOffer "driver" "request" 1500 "offer"), .advance 2, .advance 2, .advance 2,
    .invoke (.cancel "request" "rider" none), .advance 3,
    .invoke (.acceptOffer "rider" "offer" "trip"), .advance 4, .advance 4, .advance 4,
    .advance 3, .advance 3]

/-- It leaves a MATCHED trip on a CANCELLED request. -/
theorem not_agree_lateCancel :
    ¬ (tablesOf (ridePool.run (rideSystem .default) lateCancel).world).Agree := by
  decide +kernel

end Reedr
