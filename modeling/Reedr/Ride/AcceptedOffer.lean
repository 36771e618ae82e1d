import Reedr.Ride.History

/-!
# The accepted offer after its acceptance

Once an acceptance has committed, three later writes can still reach its offer
or its request's other offers: a submission that had read the request while it
was PENDING, an expiry job that had read the offer while it was PENDING, and the
acceptance itself when the offer was re-priced after its read.
-/

namespace Reedr
open Relational Interleaving

/-- Every acceptance committed so far still stands: its offer is ACCEPTED at the
fare of the trip, and no offer on its request is PENDING. -/
structure AcceptancesStand (w : RideWorld) : Prop where
  accepted : ∀ a ∈ acceptances w.trace, ∃ o ∈ (tablesOf w).rideOffers,
    o.id = a.offerId ∧ o.status = .accepted ∧
      ∃ t ∈ (tablesOf w).trips, t.rideRequestId = a.rideRequestId ∧ t.agreedFare = o.offeredFare
  settled : ∀ a ∈ acceptances w.trace, ∀ o ∈ (tablesOf w).rideOffers,
    o.rideRequestId = a.rideRequestId → o.status ≠ .pending

/-- What the writes on offers must find.
* A submission finds no trip on the request yet.
* An expiry job does not find its offer ACCEPTED.
* An acceptance finds its offer at the fare it had read. -/
def LeavesAccepted (w : RideWorld) (_ : Invocation) : Stmt → Prop
  | .upsertOffer rideRequestId _ _ _ =>
      ∀ t ∈ (tablesOf w).trips, t.rideRequestId ≠ rideRequestId
  | .expireOffer offerId =>
      ∀ o ∈ (tablesOf w).rideOffers, o.id = offerId → o.status ≠ .accepted
  | .acceptBatch a =>
      ∀ o ∈ (tablesOf w).rideOffers, o.id = a.offerId → o.offeredFare = a.offeredFare
  | _ => True

section Commit
variable {cfg : Config} {w : RideWorld} {n : Nat} {i : Invocation} {o : Stmt} {b : o.Res}
  {s : Backend}

/-- The request of an accepted offer is the request of its acceptance. -/
theorem Recorded.request_of_accepted (h : Recorded w) {a : Acceptance}
    (ha : a ∈ acceptances w.trace) {o : RideOffer} (ho : o ∈ (tablesOf w).rideOffers)
    (hid : o.id = a.offerId) : o.rideRequestId = a.rideRequestId := by
  obtain ⟨x, hx, hxid, hreq, -⟩ := h.acceptance_offer a ha
  rwa [RideOffer.eq_of_id ho hx (hid.trans hxid.symm)]

/-- A trip comes from an acceptance on its request. -/
theorem Recorded.acceptance_of_trip (h : Recorded w) {t : Trip}
    (ht : t ∈ (tablesOf w).trips) :
    ∃ a ∈ acceptances w.trace, a.rideRequestId = t.rideRequestId := by
  obtain ⟨pre, c, post, htr, a, hop, -, hterms, -⟩ := h.trip_accepted t ht
  refine ⟨a, ?_, (Trip.terms_eq.mp hterms).2.1⟩
  rw [htr, acceptances, List.filterMap_append, List.filterMap_cons, hop]
  simp [Stmt.acceptance?]

/-- Acceptances stand when their offers are untouched and none becomes PENDING. -/
private theorem stand_of_kept (h : AcceptancesStand w) (hnone : o.acceptance? = none)
    (htrips : (tablesOf w).trips.Persists Trip.terms s.tables.trips)
    (haccepted : ∀ a ∈ acceptances w.trace, ∀ x ∈ (tablesOf w).rideOffers, x.id = a.offerId →
      x.status = .accepted → x ∈ s.tables.rideOffers)
    (hpending : ∀ a ∈ acceptances w.trace, ∀ x ∈ s.tables.rideOffers,
      x.rideRequestId = a.rideRequestId → x.status = .pending →
      ∃ y ∈ (tablesOf w).rideOffers, y.rideRequestId = x.rideRequestId ∧ y.status = .pending) :
    AcceptancesStand (w.commit n i o s) := by
  have hacc : acceptances (w.commit n i o s).trace = acceptances w.trace := by
    rw [acceptances_commit, hnone]
    exact List.append_nil _
  constructor
  · intro a ha
    rw [hacc] at ha
    obtain ⟨x, hx, hid, hst, t, ht, htr, hfare⟩ := h.accepted a ha
    obtain ⟨t', ht', htt⟩ := htrips t ht
    have htt := Trip.terms_eq.mp htt
    exact ⟨x, haccepted a ha x hx hid hst, hid, hst, t', ht', htt.2.1.trans htr,
      htt.2.2.2.2.trans hfare⟩
  · intro a ha x hx hreq hst
    rw [hacc] at ha
    obtain ⟨y, hy, hyreq, hyst⟩ := hpending a ha x hx hreq hst
    exact h.settled a ha y hy (hyreq.trans hreq) hyst

/-- So they do when pending offers are expired and all others kept. -/
private theorem stand_of_expired (h : AcceptancesStand w) (hnone : o.acceptance? = none)
    {p : RideOffer → Prop} [DecidablePred p]
    (htrips : (tablesOf w).trips.Persists Trip.terms s.tables.trips)
    (hoffers : (tablesOf w).rideOffers.Rewrites
      (fun x => if p x then { x with status := .expired } else x) s.tables.rideOffers)
    (hp : ∀ a ∈ acceptances w.trace, ∀ x ∈ (tablesOf w).rideOffers, x.id = a.offerId →
      x.status = .accepted → ¬ p x) :
    AcceptancesStand (w.commit n i o s) := by
  refine stand_of_kept h hnone htrips (fun a ha x hx hid hst => ?_) fun a _ x hx _ hst => ?_
  · have hx' := hoffers.mem hx
    rwa [if_neg (hp a ha x hx hid hst)] at hx'
  · obtain ⟨y, hy, rfl⟩ := (hoffers x).mp hx
    dsimp only at hst ⊢
    split at hst
    · cases hst
    · next hpy => exact ⟨y, hy, by rw [if_neg hpy], hst⟩

private theorem stand_upsert {rideRequestId driverId uuid : Id} {fare : Fare} {offer : RideOffer}
    (hR : Recorded w) (h : AcceptancesStand w)
    (he : UpsertEffect rideRequestId driverId fare uuid (tablesOf w) offer s.tables) :
    AcceptancesStand (w.commit n i (.upsertOffer rideRequestId driverId fare uuid) s) ↔
      LeavesAccepted w i (.upsertOffer rideRequestId driverId fare uuid) := by
  constructor
  · intro h' t ht hreq
    obtain ⟨a, ha, hat⟩ := hR.acceptance_of_trip ht
    refine h'.settled a ?_ offer he.result_mem ?_ he.result_status
    · rw [acceptances_commit]
      exact List.mem_append_left _ ha
    · rw [he.result_on.1, hat, hreq]
  · intro hQ
    have hfree : ∀ a ∈ acceptances w.trace, a.rideRequestId ≠ rideRequestId := by
      intro a ha hreq
      obtain ⟨t, ht, hta⟩ := hR.acceptance_trip a ha
      exact hQ t ht ((Trip.terms_eq.mp hta).2.1.trans hreq)
    refine stand_of_kept h rfl (he.trips ▸ .refl _) (fun a ha x hx hid _ => ?_)
      fun a ha x hx hreq hst => ?_
    · refine he.others x hx fun hon => hfree a ha ?_
      rw [← hR.request_of_accepted ha hx hid, hon.1]
    · rcases he.split x hx with ⟨hold, -⟩ | rfl
      · exact ⟨x, hold, rfl, hst⟩
      · exact absurd (hreq.symm.trans he.result_on.1) (hfree a ha)

private theorem stand_expireOffer {offerId : Id} (hR : Recorded w) (h : AcceptancesStand w)
    (he : OfferEffect (expireOfferRow offerId) (tablesOf w) s.tables) :
    AcceptancesStand (w.commit n i (.expireOffer offerId) s) ↔
      LeavesAccepted w i (.expireOffer offerId) := by
  constructor
  · intro h' x hx hid hst
    obtain ⟨a, ha, hax⟩ := hR.offer_accepted x hx hst
    obtain ⟨y, hy, hyid, hyst, -⟩ := h'.accepted a (by
      rw [acceptances_commit]
      exact List.mem_append_left _ ha)
    obtain ⟨z, hz, rfl⟩ := (he.offers y).mp hy
    have hzid : z.id = offerId := by
      rw [← (RideOffer.identity_eq.mp (expireOfferRow_continues offerId z).identity).1, hyid, hax,
        hid]
    rw [expireOfferRow, if_pos hzid] at hyst
    cases hyst
  · intro hQ
    exact stand_of_expired h rfl (he.trips ▸ .refl _) he.offers
      fun a _ x hx _ hst hid => hQ x hx hid hst

private theorem stand_accept {a : Acceptance} {t : Trip} (hR : Recorded w)
    (h : AcceptancesStand w) (hk : AcceptKnown a i w) (he : a.Effect (tablesOf w) t s.tables) :
    AcceptancesStand (w.commit n i (.acceptBatch a) s) ↔ LeavesAccepted w i (.acceptBatch a) := by
  have hacc : acceptances (w.commit n i (.acceptBatch a) s).trace = acceptances w.trace ++ [a] :=
    acceptances_commit
  obtain ⟨y, hy, hyid, hyreq, -⟩ := hk.offer
  have hrow : ∀ x ∈ (tablesOf w).rideOffers, x.id = a.offerId → x = y :=
    fun x hx hid => RideOffer.eq_of_id hx hy (hid.trans hyid.symm)
  constructor
  · intro h' x hx hid
    obtain ⟨z, hz, hzid, -, u, hu, hureq, hfare⟩ := h'.accepted a (by
      rw [hacc]
      exact List.mem_append_right _ (List.mem_singleton_self a))
    obtain ⟨z', hz', rfl⟩ := (he.offers z).mp hz
    have hz'id := (RideOffer.identity_eq.mp (a.onOffer_identity z')).1
    obtain rfl := hrow x hx hid
    obtain rfl := hrow z' hz' (hz'id.symm.trans hzid)
    obtain rfl := Trip.eq_of_rideRequestId hu he.trips.mem_new hureq
    rw [← a.onOffer_fare z', ← hfare]
    rfl
  · intro hQ
    constructor
    · intro a' ha'
      rw [hacc, List.mem_append, List.mem_singleton] at ha'
      rcases ha' with ha' | rfl
      · obtain ⟨x, hx, hxid, hxst, u, hu, hureq, hfare⟩ := h.accepted a' ha'
        have hxreq : x.rideRequestId ≠ a.rideRequestId := by
          rw [hR.request_of_accepted ha' hx hxid, ← hureq]
          exact he.fresh u hu
        have hx' := he.offers.mem hx
        rw [Acceptance.onOffer, if_neg fun hid => hxreq (hrow x hx hid ▸ hyreq),
          if_neg fun hc => hxreq hc.1] at hx'
        exact ⟨x, hx', hxid, hxst, u, he.trips.mem_old hu, hureq, hfare⟩
      · refine ⟨a'.onOffer y, he.offers.mem hy, ?_, ?_, a'.trip, he.trips.mem_new, rfl, ?_⟩
        · rw [(RideOffer.identity_eq.mp (a'.onOffer_identity y)).1, hyid]
        · rw [Acceptance.onOffer, if_pos hyid]
        · rw [a'.onOffer_fare, hQ y hy hyid]
          rfl
    · intro a' ha' x hx hreq hst
      obtain ⟨z, hz, rfl⟩ := (he.offers x).mp hx
      have hid := RideOffer.identity_eq.mp (a.onOffer_identity z)
      have hpend : z.status = .pending ∧ z.rideRequestId ≠ a.rideRequestId := by
        unfold Acceptance.onOffer at hst
        split_ifs at hst with hzid hcond
        exact ⟨hst, fun hc => hcond ⟨hc, hst⟩⟩
      rw [hid.2.1] at hreq
      rw [hacc, List.mem_append, List.mem_singleton] at ha'
      rcases ha' with ha' | rfl
      · exact h.settled a' ha' z hz hreq hpend.1
      · exact hpend.2 hreq

/-- A statement leaves every acceptance standing exactly when it finds the rows
as its call relies on. -/
theorem acceptancesStand_commit_iff (hR : Recorded w) (hJ : Issued Recorded Evolves w i o)
    (h : AcceptancesStand w) (hx : Backend.exec cfg o w.shared = .ok (b, s)) :
    AcceptancesStand (w.commit n i o s) ↔ LeavesAccepted w i o := by
  have hwrote := Backend.exec_wrote hx
  have kept (hnone : o.acceptance? = none)
      (ho : s.tables.rideOffers = (tablesOf w).rideOffers)
      (ht : (tablesOf w).trips.Persists Trip.terms s.tables.trips) :
      AcceptancesStand (w.commit n i o s) :=
    stand_of_kept h hnone ht (fun _ _ x hx _ _ => ho ▸ hx)
      fun _ _ x hx _ hst => ⟨x, ho ▸ hx, rfl, hst⟩
  generalize htb : s.tables = db' at hwrote
  cases hwrote with
  | nothing ho =>
      refine iff_of_true (kept (Stmt.acceptance?_eq_none (Or.inl ho)) (congrArg _ htb)
        (htb ▸ .refl _)) ?_
      cases o <;> trivial
  | createDriverProfile he =>
      subst htb
      exact iff_of_true (kept rfl he.offers (he.trips ▸ .refl _)) trivial
  | updateDriverProfile ho he hf =>
      subst htb
      refine iff_of_true (kept (Stmt.acceptance?_eq_none (Or.inr ho)) he.offers
        (he.trips ▸ .refl _)) ?_
      cases o <;> trivial
  | createRideRequest he =>
      subst htb
      exact iff_of_true (kept rfl he.offers (he.trips ▸ .refl _)) trivial
  | upsertOffer he =>
      subst htb
      exact stand_upsert hR h he
  | acceptBatch he =>
      subst htb
      exact stand_accept hR h (acceptKnown_of_seen hJ) he
  | expireOffer he =>
      subst htb
      exact stand_expireOffer hR h he
  | expireDriverOffers he =>
      subst htb
      refine iff_of_true (stand_of_expired h rfl (he.trips ▸ .refl _) he.offers ?_) trivial
      intro a _ x _ _ hst hp
      rw [hst] at hp
      exact nomatch hp.2
  | @cancelBatch c _ _ _ he =>
      subst htb
      refine iff_of_true (stand_of_expired h rfl (he.trips.persists c.onTrip_terms)
        he.offers ?_) trivial
      intro a _ x _ _ hst hp
      rw [hst] at hp
      exact nomatch hp.2
  | @startBatch u _ _ _ he =>
      subst htb
      exact iff_of_true (kept rfl he.offers (he.trips.persists u.startTrip_terms)) trivial
  | @completeBatch u _ _ _ he =>
      subst htb
      exact iff_of_true (kept rfl he.offers (he.trips.persists u.completeTrip_terms)) trivial

end Commit

/-- In a run every acceptance stands from its commit on if and only if no
submission, expiry job or acceptance commits over rows that changed under it. -/
theorem acceptances_stand_iff (cfg : Config) (ms : List RideMove) :
    (∀ k, AcceptancesStand (ridePool.run (rideSystem cfg) (ms.take k)).world) ↔
      AllCommits (rideSystem cfg) LeavesAccepted ridePool ms := by
  have hinit : AcceptancesStand ridePool.world := ⟨nofun, nofun⟩
  rw [← allSteps_reached_iff hinit]
  exact (ride_discipline cfg).allSteps_iff (fun _ h => h) (fun h => h)
    (fun hI hJ hK hx => acceptancesStand_commit_iff hI hJ hK hx) (ridePool_sound cfg []) hinit ms

/-- A driver raises the fare while the rider accepts the old one: the second
submission reads the request, the acceptance commits, the submission commits. -/
def lateResubmission : List RideMove :=
  [.invoke (.verifyDriver "driver" "application" "profile"), .advance 0,
    .invoke (.create "rider" ⟨6, 3, 7, 4, 1500⟩ "request"), .advance 1,
    .invoke (.submitOffer "driver" "request" 1500 "offer"), .advance 2, .advance 2, .advance 2,
    .invoke (.submitOffer "driver" "request" 2000 "unused"), .advance 3, .advance 3,
    .invoke (.acceptOffer "rider" "offer" "trip"), .advance 4, .advance 4, .advance 4,
    .advance 3]

/-- The accepted offer is PENDING again, at another fare than its trip. -/
theorem not_acceptancesStand_lateResubmission :
    ¬ AcceptancesStand (ridePool.run (rideSystem .default) lateResubmission).world := by
  intro h
  have hsettled := h.settled ⟨"offer", "request", "driver", "rider", 1500, "trip"⟩
    (by decide +kernel)
  exact absurd hsettled (by decide +kernel)

end Reedr
