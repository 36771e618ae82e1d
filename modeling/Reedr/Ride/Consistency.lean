import Reedr.Ride.Evolution

/-!
# Requests, offers and trips when calls run one at a time

No ride service checks the whole relation between the three tables; each relies
on the others having kept it. `Coherent` is the relation as every single write
keeps it, given that the guards of its call hold at that moment, which they do
when no other call runs in between. `RideRequest.Consistent` is what it means
for one ride request.
-/

namespace Reedr
open Relational Interleaving

/-- The relation between the three tables that every write of a ride service keeps. -/
structure RideTables.Coherent (db : RideTables) : Prop where
  trip_request : ∀ t ∈ db.trips, ∃ r ∈ db.rideRequests,
    r.id = t.rideRequestId ∧ r.riderId = t.riderId ∧ r.status = t.status.onRequest
  request_trip : ∀ r ∈ db.rideRequests, r.status ≠ .pending → r.status ≠ .cancelled →
    ∃ t ∈ db.trips, t.rideRequestId = r.id
  offer_request : ∀ o ∈ db.rideOffers, ∃ r ∈ db.rideRequests,
    r.id = o.rideRequestId ∧ (o.status = .pending → r.status = .pending)
  accepted_trip : ∀ o ∈ db.rideOffers, o.status = .accepted → ∃ t ∈ db.trips,
    t.rideRequestId = o.rideRequestId ∧ t.agreedFare = o.offeredFare ∧
      ∃ p ∈ db.driverProfiles, p.id = o.driverId ∧ p.userId = t.driverId
  accepted_unique : ∀ o ∈ db.rideOffers, ∀ q ∈ db.rideOffers, o.status = .accepted →
    q.status = .accepted → o.rideRequestId = q.rideRequestId → o = q
  trip_accepted : ∀ t ∈ db.trips, ∃ o ∈ db.rideOffers,
    o.rideRequestId = t.rideRequestId ∧ o.status = .accepted

/-- The state of one ride request with its offers and its trip. -/
structure RideRequest.Consistent (db : RideTables) (r : RideRequest) : Prop where
  pending : r.status = .pending →
    (∀ t ∈ db.trips, t.rideRequestId ≠ r.id) ∧
      ∀ o ∈ db.rideOffers, o.rideRequestId = r.id → o.status ≠ .accepted
  matched : ∀ status : TripStatus, status ≠ .cancelled → r.status = status.onRequest →
    ∃ t ∈ db.trips, t.rideRequestId = r.id ∧ t.status = status ∧
      ∀ u ∈ db.trips, u.rideRequestId = r.id → u = t
  cancelled : r.status = .cancelled →
    ((∀ t ∈ db.trips, t.rideRequestId ≠ r.id) ∧
      ∀ o ∈ db.rideOffers, o.rideRequestId = r.id → o.status ≠ .accepted) ∨
    ∃ t ∈ db.trips, t.rideRequestId = r.id ∧ t.status = .cancelled ∧
      ∀ u ∈ db.trips, u.rideRequestId = r.id → u = t
  trip : ∀ t ∈ db.trips, t.rideRequestId = r.id → t.riderId = r.riderId ∧
    ∃ o ∈ db.rideOffers, o.rideRequestId = r.id ∧ o.status = .accepted ∧
      (∀ q ∈ db.rideOffers, q.rideRequestId = r.id → q.status = .accepted → q = o) ∧
      t.agreedFare = o.offeredFare ∧
      ∃ p ∈ db.driverProfiles, p.id = o.driverId ∧ p.userId = t.driverId
  settled : r.status ≠ .pending →
    ∀ o ∈ db.rideOffers, o.rideRequestId = r.id → o.status ≠ .pending

/-- Every ride request is in such a state. -/
def RideTables.Consistent (db : RideTables) : Prop := ∀ r ∈ db.rideRequests, r.Consistent db

namespace RideTables.Coherent
variable {db db' : RideTables}

theorem empty : RideTables.empty.Coherent := by
  refine ⟨?_, ?_, ?_, ?_, ?_, ?_⟩ <;> simp [RideTables.empty]

section Consistent

/-- A trip's status is decided by its request's. -/
private theorem onRequest_eq (h : db.Coherent) {r : RideRequest} (hr : r ∈ db.rideRequests)
    {t : Trip} (ht : t ∈ db.trips) (hid : t.rideRequestId = r.id) :
    r.status = t.status.onRequest ∧ t.riderId = r.riderId := by
  obtain ⟨r', hr', hid', hrider, hst⟩ := h.trip_request t ht
  obtain rfl := RideRequest.eq_of_id hr' hr (hid'.trans hid)
  exact ⟨hst, hrider.symm⟩

private theorem not_accepted (h : db.Coherent) {r : RideRequest}
    (hnone : ∀ t ∈ db.trips, t.rideRequestId ≠ r.id) :
    ∀ o ∈ db.rideOffers, o.rideRequestId = r.id → o.status ≠ .accepted := by
  intro o ho hreq hst
  obtain ⟨t, ht, htr, -⟩ := h.accepted_trip o ho hst
  exact hnone t ht (htr.trans hreq)

theorem consistent (h : db.Coherent) {r : RideRequest} (hr : r ∈ db.rideRequests) :
    r.Consistent db := by
  have unique {t : Trip} (ht : t ∈ db.trips) (hid : t.rideRequestId = r.id) :
      ∀ u ∈ db.trips, u.rideRequestId = r.id → u = t :=
    fun u hu hur => Trip.eq_of_rideRequestId hu ht (hur.trans hid.symm)
  constructor
  · intro hst
    have hnone : ∀ t ∈ db.trips, t.rideRequestId ≠ r.id := by
      intro t ht hid
      have := (h.onRequest_eq hr ht hid).1
      rw [hst] at this
      cases hts : t.status <;> simp [hts, TripStatus.onRequest] at this
    exact ⟨hnone, h.not_accepted hnone⟩
  · intro status hne hst
    have hp : r.status ≠ .pending := by
      rw [hst]
      cases status <;> simp [TripStatus.onRequest]
    have hc : r.status ≠ .cancelled := by
      rw [hst]
      cases status <;> simp [TripStatus.onRequest] at hne ⊢
    obtain ⟨t, ht, hid⟩ := h.request_trip r hr hp hc
    refine ⟨t, ht, hid, ?_, unique ht hid⟩
    have := (h.onRequest_eq hr ht hid).1.symm.trans hst
    cases hts : t.status <;> cases status <;> simp [hts, TripStatus.onRequest] at this ⊢
  · intro hst
    by_cases hex : ∃ t ∈ db.trips, t.rideRequestId = r.id
    · obtain ⟨t, ht, hid⟩ := hex
      refine Or.inr ⟨t, ht, hid, ?_, unique ht hid⟩
      have := hst.symm.trans (h.onRequest_eq hr ht hid).1
      cases hts : t.status <;> simp [hts, TripStatus.onRequest] at this ⊢
    · have hnone : ∀ t ∈ db.trips, t.rideRequestId ≠ r.id :=
        fun t ht hid => hex ⟨t, ht, hid⟩
      exact Or.inl ⟨hnone, h.not_accepted hnone⟩
  · intro t ht hid
    obtain ⟨o, ho, hreq, host⟩ := h.trip_accepted t ht
    obtain ⟨u, hu, hur, hfare, hp⟩ := h.accepted_trip o ho host
    obtain rfl := Trip.eq_of_rideRequestId hu ht (hur.trans hreq)
    refine ⟨(h.onRequest_eq hr ht hid).2, o, ho, hreq.trans hid, host,
      fun q hq hqr hqst => ?_, hfare, hp⟩
    exact h.accepted_unique q hq o ho hqst host (by rw [hqr, hreq, hid])
  · intro hst o ho hreq hpend
    obtain ⟨r', hr', hid, himp⟩ := h.offer_request o ho
    obtain rfl := RideRequest.eq_of_id hr' hr (hid.trans hreq)
    exact hst (himp hpend)

end Consistent

/-- Rewriting rows in step keeps the relation: requests and trips move together,
and no offer of a request that leaves PENDING stays PENDING. -/
theorem rewrite {f : RideRequest → RideRequest} {g : Trip → Trip} {k : RideOffer → RideOffer}
    (h : db.Coherent)
    (hprofiles : db.driverProfiles.Persists DriverProfile.identity db'.driverProfiles)
    (hr : db.rideRequests.Rewrites f db'.rideRequests) (ht : db.trips.Rewrites g db'.trips)
    (ho : db.rideOffers.Rewrites k db'.rideOffers)
    (hf : ∀ r, (f r).identity = r.identity) (hg : ∀ t, (g t).terms = t.terms)
    (hk : ∀ o, (k o).Continues o)
    (hstatus : ∀ r ∈ db.rideRequests, ∀ t ∈ db.trips, r.id = t.rideRequestId →
      r.status = t.status.onRequest → (f r).status = (g t).status.onRequest)
    (hmoved : ∀ r ∈ db.rideRequests, (f r).status ≠ .pending → (f r).status ≠ .cancelled →
      r.status ≠ .pending ∧ r.status ≠ .cancelled)
    (hpending : ∀ o ∈ db.rideOffers, (k o).status = .pending → o.status = .pending ∧
      ∀ r ∈ db.rideRequests, r.id = o.rideRequestId → r.status = .pending →
        (f r).status = .pending)
    (haccepted : ∀ o ∈ db.rideOffers, o.status = .accepted → (k o).status = .accepted) :
    db'.Coherent := by
  have fid (r : RideRequest) := RideRequest.identity_eq.mp (hf r)
  have gid (t : Trip) := Trip.terms_eq.mp (hg t)
  have kid (o : RideOffer) := RideOffer.identity_eq.mp (hk o).identity
  constructor
  · intro t' ht'
    obtain ⟨t, htm, rfl⟩ := (ht t').mp ht'
    obtain ⟨r, hrm, hid, hrider, hst⟩ := h.trip_request t htm
    exact ⟨f r, hr.mem hrm, by rw [(fid r).1, hid, (gid t).2.1],
      by rw [(fid r).2, hrider, (gid t).2.2.2.1], hstatus r hrm t htm hid hst⟩
  · intro r' hr' hp hc
    obtain ⟨r, hrm, rfl⟩ := (hr r').mp hr'
    obtain ⟨hp', hc'⟩ := hmoved r hrm hp hc
    obtain ⟨t, htm, hid⟩ := h.request_trip r hrm hp' hc'
    exact ⟨g t, ht.mem htm, by rw [(gid t).2.1, hid, (fid r).1]⟩
  · intro o' ho'
    obtain ⟨o, hom, rfl⟩ := (ho o').mp ho'
    obtain ⟨r, hrm, hid, himp⟩ := h.offer_request o hom
    refine ⟨f r, hr.mem hrm, by rw [(fid r).1, hid, (kid o).2.1], fun hst => ?_⟩
    obtain ⟨hopend, hkeep⟩ := hpending o hom hst
    exact hkeep r hrm hid (himp hopend)
  · intro o' ho' hst
    obtain ⟨o, hom, rfl⟩ := (ho o').mp ho'
    obtain ⟨t, htm, hreq, hfare, p, hp, hpid, hpu⟩ := h.accepted_trip o hom ((hk o).accepted hst)
    obtain ⟨p', hp', hpp⟩ := hprofiles p hp
    have hpp := DriverProfile.identity_eq.mp hpp
    exact ⟨g t, ht.mem htm, by rw [(gid t).2.1, hreq, (kid o).2.1],
      by rw [(gid t).2.2.2.2, hfare, (hk o).fare], p', hp', by rw [hpp.1, hpid, (kid o).2.2],
      by rw [hpp.2.1, hpu, (gid t).2.2.1]⟩
  · intro o' ho' q' hq' host hqst hreq
    obtain ⟨o, hom, rfl⟩ := (ho o').mp ho'
    obtain ⟨q, hqm, rfl⟩ := (ho q').mp hq'
    rw [h.accepted_unique o hom q hqm ((hk o).accepted host) ((hk q).accepted hqst)
      (by rw [← (kid o).2.1, hreq, (kid q).2.1])]
  · intro t' ht'
    obtain ⟨t, htm, rfl⟩ := (ht t').mp ht'
    obtain ⟨o, hom, hreq, hst⟩ := h.trip_accepted t htm
    exact ⟨k o, ho.mem hom, by rw [(kid o).2.1, hreq, (gid t).2.1], haccepted o hom hst⟩

/-- So does a statement on driver profiles that keeps the existing ones. -/
theorem profiles (h : db.Coherent)
    (hprofiles : db.driverProfiles.Persists DriverProfile.identity db'.driverProfiles)
    (hr : db'.rideRequests = db.rideRequests) (ho : db'.rideOffers = db.rideOffers)
    (ht : db'.trips = db.trips) : db'.Coherent :=
  h.rewrite hprofiles (hr ▸ .refl _) (ht ▸ .refl _) (ho ▸ .refl _) (fun _ => rfl) (fun _ => rfl)
    .refl (fun _ _ _ _ _ hst => hst) (fun _ _ hp hc => ⟨hp, hc⟩)
    (fun _ _ hp => ⟨hp, fun _ _ _ hst => hst⟩) fun _ _ hst => hst

theorem createRideRequest (h : db.Coherent) {r : RideRequest}
    (he : RequestCreated r db db') (hst : r.status = .pending) : db'.Coherent := by
  constructor
  · intro t ht
    obtain ⟨x, hx, hrest⟩ := h.trip_request t (he.trips ▸ ht)
    exact ⟨x, he.requests.mem_old hx, hrest⟩
  · intro x hx hp hc
    rcases (he.requests x).mp hx with hx | rfl
    · rw [he.trips]
      exact h.request_trip x hx hp hc
    · exact absurd hst hp
  · intro o ho
    obtain ⟨x, hx, hrest⟩ := h.offer_request o (he.offers ▸ ho)
    exact ⟨x, he.requests.mem_old hx, hrest⟩
  · rw [he.offers, he.trips, he.profiles]
    exact h.accepted_trip
  · rw [he.offers]
    exact h.accepted_unique
  · rw [he.offers, he.trips]
    exact h.trip_accepted

/-- A submission on a PENDING request cannot meet an accepted offer there. -/
theorem upsertOffer (h : db.Coherent) {rideRequestId driverId uuid : Id} {fare : Fare}
    {offer : RideOffer} (he : UpsertEffect rideRequestId driverId fare uuid db offer db')
    (hreq : ∃ r ∈ db.rideRequests, r.id = rideRequestId ∧ r.status = .pending) :
    db'.Coherent := by
  obtain ⟨r, hr, hid, hst⟩ := hreq
  have old {x : RideOffer} (hx : x ∈ db'.rideOffers) (hacc : x.status = .accepted) :
      x ∈ db.rideOffers := by
    rcases he.split x hx with ⟨hx, -⟩ | rfl
    · exact hx
    · rw [he.result_status] at hacc
      cases hacc
  constructor
  · rw [he.trips, he.requests]
    exact h.trip_request
  · rw [he.trips, he.requests]
    exact h.request_trip
  · intro o ho
    rw [he.requests]
    rcases he.split o ho with ⟨ho, -⟩ | rfl
    · exact h.offer_request o ho
    · exact ⟨r, hr, hid.trans he.result_on.1.symm, fun _ => hst⟩
  · intro o ho hacc
    rw [he.trips, he.profiles]
    exact h.accepted_trip o (old ho hacc) hacc
  · intro o ho q hq hacc hqacc hoq
    exact h.accepted_unique o (old ho hacc) q (old hq hqacc) hacc hqacc hoq
  · intro t ht
    rw [he.trips] at ht
    obtain ⟨o, ho, hot, hacc⟩ := h.trip_accepted t ht
    refine ⟨o, he.others o ho fun hon => ?_, hot, hacc⟩
    have hnone := ((h.consistent hr).pending hst).1
    exact hnone t ht (by rw [hid, ← hon.1, hot])

private theorem expired (h : db.Coherent) {p : RideOffer → Prop} [DecidablePred p]
    (he : OfferEffect (fun o => if p o then { o with status := .expired } else o) db db')
    (hp : ∀ o ∈ db.rideOffers, p o → o.status = .pending) : db'.Coherent := by
  refine h.rewrite (he.profiles ▸ .refl _) (he.requests ▸ .refl _) (he.trips ▸ .refl _) he.offers
    (fun _ => rfl) (fun _ => rfl) (fun o => expired_continues (p o) o) (fun _ _ _ _ _ hst => hst)
    (fun _ _ hp hc => ⟨hp, hc⟩) (fun o _ hst => ?_) fun o ho hst => ?_
  · split at hst
    · cases hst
    · exact ⟨hst, fun _ _ _ hst => hst⟩
  · rw [if_neg fun hpo => by rw [hp o ho hpo] at hst; cases hst]
    exact hst

private theorem cancelBatch (h : db.Coherent) {c : Cancellation} {r : RideRequest}
    {i : Invocation} (he : c.Effect db r db') (hJ : CancelRead c i db) : db'.Coherent := by
  -- The trip that was read, if any, is the trip of the request now.
  have htrip {t : Trip} (ht : t ∈ db.trips) :
      c.tripId = some t.id ↔ t.rideRequestId = c.rideRequestId := by
    constructor
    · intro hid
      obtain ⟨u, hu, huid, hreq⟩ := hJ.trip t.id hid
      rwa [Trip.eq_of_id ht hu huid.symm]
    · intro hreq
      cases hid : c.tripId with
      | none => exact absurd hreq (hJ.noTrip hid t ht)
      | some id =>
          obtain ⟨u, hu, huid, hureq⟩ := hJ.trip id hid
          rw [Trip.eq_of_rideRequestId ht hu (hreq.trans hureq.symm), huid]
  refine h.rewrite (he.profiles ▸ .refl _) he.requests he.trips he.offers c.onRequest_identity
    c.onTrip_terms c.onOffer_continues (fun r _ t ht hid hst => ?_) (fun r _ hp hc => ?_)
    (fun o _ hst => ?_) fun o _ hst => ?_
  · rw [c.onRequest_status, Cancellation.onTrip]
    by_cases hreq : r.id = c.rideRequestId
    · rw [if_pos hreq, if_pos ((htrip ht).mpr (hid.symm.trans hreq))]
      rfl
    · rwa [if_neg hreq, if_neg fun hc => hreq (hid.trans ((htrip ht).mp hc))]
  · rw [c.onRequest_status] at hp hc
    split at hc
    · exact absurd rfl hc
    · next hreq =>
        rw [if_neg hreq] at hp
        exact ⟨hp, hc⟩
  · unfold Cancellation.onOffer at hst
    split at hst
    · cases hst
    · next hno =>
        refine ⟨hst, fun r _ hid hr => ?_⟩
        rw [c.onRequest_status, if_neg fun hreq => hno ⟨hid.symm.trans hreq, hst⟩]
        exact hr
  · rw [Cancellation.onOffer, if_neg fun hc => by rw [hc.2] at hst; cases hst]
    exact hst

/-- `start` and `complete` move a trip and its request, which has no pending offer. -/
theorem tripUpdate (h : db.Coherent) {u : TripUpdate} {t : Trip} {onTrip : Trip → Trip}
    (status : TripStatus) (he : u.Effect onTrip status.onRequest db t db')
    (hterms : ∀ t, (onTrip t).terms = t.terms)
    (hstatus : ∀ t, (onTrip t).status = if t.id = u.tripId then status else t.status)
    (hread : ∃ t ∈ db.trips, t.id = u.tripId ∧ t.rideRequestId = u.rideRequestId ∧
      t.status ≠ .cancelled) : db'.Coherent := by
  obtain ⟨x, hx, hxid, hxreq, hxst⟩ := hread
  have htrip {t : Trip} (ht : t ∈ db.trips) :
      t.id = u.tripId ↔ t.rideRequestId = u.rideRequestId :=
    ⟨fun hid => by rwa [Trip.eq_of_id ht hx (hid.trans hxid.symm)],
      fun hreq => by rwa [Trip.eq_of_rideRequestId ht hx (hreq.trans hxreq.symm)]⟩
  have hmoved : ∀ r ∈ db.rideRequests, r.id = u.rideRequestId →
      r.status ≠ .pending ∧ r.status ≠ .cancelled := by
    intro r hr hid
    rw [(h.onRequest_eq hr hx (hxreq.trans hid.symm)).1]
    cases hst : x.status <;> simp [hst, TripStatus.onRequest] at hxst ⊢
  refine h.rewrite (he.profiles ▸ .refl _) he.requests he.trips (he.offers ▸ .refl _)
    (u.onRequest_identity _) hterms .refl (fun r _ t ht hid hst => ?_) (fun r hr hp hc => ?_)
    (fun o _ hst => ⟨hst, fun r hr hid hpend => ?_⟩) fun _ _ hst => hst
  · rw [u.onRequest_status, hstatus]
    by_cases hreq : r.id = u.rideRequestId
    · rw [if_pos hreq, if_pos ((htrip ht).mpr (hid.symm.trans hreq))]
    · rwa [if_neg hreq, if_neg fun hc => hreq (hid.trans ((htrip ht).mp hc))]
  · by_cases hreq : r.id = u.rideRequestId
    · exact hmoved r hr hreq
    · rw [u.onRequest_status, if_neg hreq] at hp hc
      exact ⟨hp, hc⟩
  · rw [u.onRequest_status, if_neg fun hreq => (hmoved r hr hreq).1 hpend]
    exact hpend

/-- An accepted offer stays accepted through another acceptance. -/
private theorem accepted_onOffer (a : Acceptance) {o : RideOffer} (h : o.status = .accepted) :
    (a.onOffer o).status = .accepted := by
  unfold Acceptance.onOffer
  split_ifs with hid hc
  · rfl
  · rw [h] at hc
    exact nomatch hc.2
  · exact h

theorem acceptBatch (h : db.Coherent) {a : Acceptance} {t : Trip} {i : Invocation}
    (he : a.Effect db t db') (hJ : AcceptRead a i db) : db'.Coherent := by
  obtain ⟨o, ho, hoid, horeq, hfare, -, p, hp, hpid, hpu⟩ := hJ.offer
  obtain ⟨r, hr, hrid, hrider, -⟩ := hJ.request
  have rid (r : RideRequest) := RideRequest.identity_eq.mp (a.onRequest_identity r)
  have oid (o : RideOffer) := RideOffer.identity_eq.mp (a.onOffer_identity o)
  have hrow {x : RideOffer} (hx : x ∈ db.rideOffers) (hid : x.id = a.offerId) : x = o :=
    RideOffer.eq_of_id hx ho (hid.trans hoid.symm)
  have hother {x : RideOffer} (hx : x ∈ db.rideOffers) (hst : x.status = .accepted) :
      x.rideRequestId ≠ a.rideRequestId := by
    obtain ⟨u, hu, hureq, -⟩ := h.accepted_trip x hx hst
    exact hureq ▸ he.fresh u hu
  have hprofiles : db'.driverProfiles = db.driverProfiles := he.profiles
  constructor
  · intro u hu
    rcases (he.trips u).mp hu with hu | rfl
    · obtain ⟨x, hx, hid, hxr, hst⟩ := h.trip_request u hu
      refine ⟨a.onRequest x, he.requests.mem hx, (rid x).1.trans hid, (rid x).2.trans hxr, ?_⟩
      rwa [a.onRequest_status, if_neg fun hreq => he.fresh u hu (hid.symm.trans hreq)]
    · refine ⟨a.onRequest r, he.requests.mem hr, (rid r).1.trans hrid, (rid r).2.trans hrider, ?_⟩
      rw [a.onRequest_status, if_pos hrid]
      rfl
  · intro x hx hp hc
    obtain ⟨y, hy, rfl⟩ := (he.requests x).mp hx
    by_cases hreq : y.id = a.rideRequestId
    · exact ⟨a.trip, he.trips.mem_new, ((rid y).1.trans hreq).symm⟩
    · rw [a.onRequest_status, if_neg hreq] at hp hc
      obtain ⟨u, hu, hid⟩ := h.request_trip y hy hp hc
      exact ⟨u, he.trips.mem_old hu, hid.trans (rid y).1.symm⟩
  · intro x hx
    obtain ⟨y, hy, rfl⟩ := (he.offers x).mp hx
    obtain ⟨z, hz, hid, himp⟩ := h.offer_request y hy
    refine ⟨a.onRequest z, he.requests.mem hz, by rw [(rid z).1, hid, (oid y).2.1],
      fun hst => ?_⟩
    unfold Acceptance.onOffer at hst
    split_ifs at hst with hyid hyc
    rw [a.onRequest_status, if_neg fun hreq => hyc ⟨hid.symm.trans hreq, hst⟩]
    exact himp hst
  · intro x hx hst
    obtain ⟨y, hy, rfl⟩ := (he.offers x).mp hx
    by_cases hyid : y.id = a.offerId
    · obtain rfl := hrow hy hyid
      exact ⟨a.trip, he.trips.mem_new, by rw [(oid y).2.1, horeq]; rfl,
        by rw [a.onOffer_fare, hfare]; rfl, p, hprofiles.symm ▸ hp,
        hpid.trans (oid y).2.2.symm, hpu⟩
    · have hyst := (a.onOffer_accepted hst).resolve_left hyid
      obtain ⟨u, hu, hureq, hufare, q, hq, hqid, hqu⟩ := h.accepted_trip y hy hyst
      exact ⟨u, he.trips.mem_old hu, hureq.trans (oid y).2.1.symm,
        hufare.trans (a.onOffer_fare y).symm, q, hprofiles.symm ▸ hq,
        hqid.trans (oid y).2.2.symm, hqu⟩
  · intro x hx y hy hxst hyst hxy
    obtain ⟨x, hx₀, rfl⟩ := (he.offers x).mp hx
    obtain ⟨y, hy₀, rfl⟩ := (he.offers y).mp hy
    rw [(oid x).2.1, (oid y).2.1] at hxy
    rcases a.onOffer_accepted hxst with hxid | hxst <;>
      rcases a.onOffer_accepted hyst with hyid | hyst
    · rw [hrow hx₀ hxid, hrow hy₀ hyid]
    · exact absurd (hxy.symm.trans (hrow hx₀ hxid ▸ horeq)) (hother hy₀ hyst)
    · exact absurd (hxy.trans (hrow hy₀ hyid ▸ horeq)) (hother hx₀ hxst)
    · rw [h.accepted_unique x hx₀ y hy₀ hxst hyst hxy]
  · intro u hu
    rcases (he.trips u).mp hu with hu | rfl
    · obtain ⟨x, hx, hxreq, hst⟩ := h.trip_accepted u hu
      exact ⟨a.onOffer x, he.offers.mem hx, (oid x).2.1.trans hxreq, accepted_onOffer a hst⟩
    · refine ⟨a.onOffer o, he.offers.mem ho, (oid o).2.1.trans horeq, ?_⟩
      rw [Acceptance.onOffer, if_pos hoid]

end RideTables.Coherent

section Serial

/-- Between the steps of a call that runs alone the tables change by its own
writes only, so what it has read still holds when it writes. -/
def SameTables (w w' : RideWorld) : Prop := tablesOf w' = tablesOf w

theorem sameTables_reads : Reads SameTables where
  refl _ := rfl
  trans h₁ h₂ := h₂.trans h₁
  silent _ hs := hs

theorem Seen.now {I : RideWorld → Prop} {w : RideWorld} {P : RideTables → Prop}
    (h : Seen I SameTables w P) : P (tablesOf w) := by
  obtain ⟨w₀, -, hw, hP⟩ := h
  exact hw.symm ▸ hP

variable {cfg : Config} {w : RideWorld} {n : Nat} {i : Invocation} {o : Stmt} {b : o.Res}
  {s : Backend}

/-- Each statement whose guards hold keeps the three tables coherent. -/
theorem coherent_commit {I : RideWorld → Prop} (h : (tablesOf w).Coherent)
    (hJ : Issued I SameTables w i o) (hx : Backend.exec cfg o w.shared = .ok (b, s)) :
    s.tables.Coherent := by
  have hwrote := Backend.exec_wrote hx
  generalize htb : s.tables = db' at hwrote
  cases hwrote with
  | nothing ho => exact h
  | createDriverProfile he => exact h.profiles he.profiles.persists he.requests he.offers he.trips
  | updateDriverProfile ho he hf =>
      exact h.profiles (he.profiles.persists fun p => by simp [hf]) he.requests he.offers he.trips
  | createRideRequest he => exact h.createRideRequest he hJ.1
  | upsertOffer he => exact h.upsertOffer he hJ.2.now
  | acceptBatch he => exact h.acceptBatch he (Seen.now hJ)
  | @expireOffer offerId _ _ he =>
      have hseen : Seen I SameTables w fun db =>
        ∃ o ∈ db.rideOffers, o.id = offerId ∧ o.status = .pending := hJ
      obtain ⟨x, hx, hid, hst⟩ := hseen.now
      apply h.expired he
      intro y hy hyid
      rwa [RideOffer.eq_of_id hy hx (hyid.trans hid.symm)]
  | expireDriverOffers he => exact h.expired he fun _ _ hp => hp.2
  | cancelBatch he => exact h.cancelBatch he (Seen.now hJ)
  | @startBatch u _ _ _ he =>
      obtain ⟨x, hx, hid, hreq, hst, -⟩ := Seen.now hJ
      exact h.tripUpdate .started he u.startTrip_terms u.startTrip_status
        ⟨x, hx, hid, hreq, by rw [hst]; decide⟩
  | @completeBatch u _ _ _ he =>
      obtain ⟨x, hx, hid, hreq, hst, -⟩ := Seen.now hJ
      exact h.tripUpdate .completed he u.completeTrip_terms u.completeTrip_status
        ⟨x, hx, hid, hreq, by rw [hst]; decide⟩

/-- So does each whole call, however it ends. -/
theorem coherent_call (cfg : Config) (i : Invocation) (n : Nat) {w : RideWorld}
    (h : (tablesOf w).Coherent) :
    (i.code cfg).Ends (rideSystem cfg) n i (fun _ w' => (tablesOf w').Coherent) w :=
  Call.Ends.of_justified (I := fun w => (tablesOf w).Coherent) sameTables_reads.refl
    (fun h hJ hx => coherent_commit h hJ hx) (code_issued sameTables_reads i w) h

end Serial

/-- After any number of whole calls, successful or throwing, every ride request
is consistent with its offers and its trip. -/
theorem rideTables_consistent (cfg : Config) (calls : List (Invocation × List Bool)) :
    (tablesOf (ridePool.serveAll (rideSystem cfg) calls).world).Consistent := by
  have h : (tablesOf (ridePool.serveAll (rideSystem cfg) calls).world).Coherent :=
    Pool.serveAll_invariant (K := fun w => (tablesOf w).Coherent)
      (fun w n i hw => coherent_call cfg i n hw) RideTables.Coherent.empty calls
  exact fun r hr => h.consistent hr

end Reedr
