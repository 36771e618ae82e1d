import Reedr.Library.Bargain
import Reedr.Ride.Turns

/-!
# The ride tables as bargains

Every ride request is a bargain: its pending offers are the bids, its accepted
offer with its trip is the deal. `Shows` reads the stage of the bargain off the
tables. Each write moves the stage of each request by one step of a bargain, or
not at all, exactly when the rows it was decided on are still as it found them.
-/

namespace Reedr
open Relational Interleaving Bargaining

/-- The status of a ride request in a stage of its bargain. -/
def RideRequestStatus.ofStage : Stage Id Fare → RideRequestStatus
  | .bidding _ => .pending
  | .agreed _ => .matched
  | .underWay _ => .inProgress
  | .settled _ => .completed
  | .calledOff _ => .cancelled

/-- A stage is determined by its status, its bids and its deal. -/
theorem stage_ext {s s' : Stage Id Fare}
    (hst : RideRequestStatus.ofStage s = RideRequestStatus.ofStage s') (hb : s.bids = s'.bids)
    (hd : s.deals = s'.deals) : s = s' := by
  cases s <;> cases s' <;> simp only [RideRequestStatus.ofStage, reduceCtorEq] at hst
  · exact congrArg _ hb
  · exact congrArg _ (Set.singleton_injective hd)
  · exact congrArg _ (Set.singleton_injective hd)
  · exact congrArg _ (Set.singleton_injective hd)
  · next d d' =>
      congr 1
      apply Option.ext
      intro x
      exact Set.ext_iff.mp hd x

namespace RideTables
variable (db : RideTables)

/-- The drivers with an offer of the given status on a request, with their fares. -/
def offered (status : OfferStatus) (id : Id) : Set (Id × Fare) :=
  {b | ∃ o ∈ db.rideOffers, o.rideRequestId = id ∧ o.status = status ∧
    (o.driverId, o.offeredFare) = b}

/-- The tables show the bargain on `r` in stage `s`: the bids are the pending
offers, the deal is the accepted one, and there is a trip exactly for a deal, on
its terms and in the status of the request. -/
structure Shows (r : RideRequest) (s : Stage Id Fare) : Prop where
  status : r.status = .ofStage s
  bids : db.offered .pending r.id = s.bids
  deals : db.offered .accepted r.id = s.deals
  trip : s.deals.Nonempty → ∃ t ∈ db.trips, t.rideRequestId = r.id
  terms : ∀ t ∈ db.trips, t.rideRequestId = r.id →
    t.riderId = r.riderId ∧ r.status = t.status.onRequest ∧ ∃ b ∈ s.deals,
      b.2 = t.agreedFare ∧ ∃ p ∈ db.driverProfiles, p.id = b.1 ∧ p.userId = t.driverId

/-- From one state of the tables to the next, every bargain takes a step or
stays, and a new one starts without bids. -/
def Negotiates (db db' : RideTables) : Prop :=
  ∀ r' ∈ db'.rideRequests, ∃ s', db'.Shows r' s' ∧
    ((∀ r ∈ db.rideRequests, r.id ≠ r'.id) ∧ s' = .bidding ∅ ∨
      ∃ r ∈ db.rideRequests, r.id = r'.id ∧ ∃ s, db.Shows r s ∧
        Relation.ReflGen Stage.Step s s')

variable {db} {db' : RideTables}

section Coherent

/-- What coherent tables say about the trip of a request. -/
private theorem Coherent.terms (h : db.Coherent) {r : RideRequest} (hr : r ∈ db.rideRequests)
    {t : Trip} (ht : t ∈ db.trips) (hid : t.rideRequestId = r.id) :
    t.riderId = r.riderId ∧ r.status = t.status.onRequest ∧
      ∃ o ∈ db.rideOffers, o.rideRequestId = r.id ∧ o.status = .accepted ∧
        o.offeredFare = t.agreedFare ∧
        ∃ p ∈ db.driverProfiles, p.id = o.driverId ∧ p.userId = t.driverId := by
  obtain ⟨r', hr', hid', hrider, hst⟩ := h.trip_request t ht
  obtain rfl := RideRequest.eq_of_id hr' hr (hid'.trans hid)
  obtain ⟨o, ho, hreq, host⟩ := h.trip_accepted t ht
  obtain ⟨u, hu, hureq, hfare, hp⟩ := h.accepted_trip o ho host
  obtain rfl := Trip.eq_of_rideRequestId hu ht (hureq.trans hreq)
  exact ⟨hrider.symm, hst, o, ho, hreq.trans hid, host, hfare.symm, hp⟩

/-- An accepted offer of coherent tables is the only deal on its request. -/
private theorem Coherent.offered_accepted (h : db.Coherent) {o : RideOffer}
    (ho : o ∈ db.rideOffers) (hst : o.status = .accepted) :
    db.offered .accepted o.rideRequestId = {(o.driverId, o.offeredFare)} := by
  ext b
  constructor
  · rintro ⟨q, hq, hreq, hqst, rfl⟩
    rw [h.accepted_unique q hq o ho hqst hst hreq]
    rfl
  · rintro rfl
    exact ⟨o, ho, rfl, hst, rfl⟩

private theorem Coherent.offered_pending (h : db.Coherent) {r : RideRequest}
    (hr : r ∈ db.rideRequests) (hst : r.status ≠ .pending) : db.offered .pending r.id = ∅ := by
  rw [Set.eq_empty_iff_forall_notMem]
  rintro b ⟨o, ho, hreq, hpend, -⟩
  exact (h.consistent hr).settled hst o ho hreq hpend

private theorem Coherent.shows_deal (h : db.Coherent) {r : RideRequest}
    (hr : r ∈ db.rideRequests) {t : Trip} (ht : t ∈ db.trips) (hid : t.rideRequestId = r.id)
    (f : Id × Fare → Stage Id Fare) (hst : ∀ d, r.status = .ofStage (f d))
    (hb : ∀ d, (f d).bids = ∅) (hd : ∀ d, (f d).deals = {d}) : ∃ s, db.Shows r s := by
  obtain ⟨-, hstatus, o, ho, hreq, host, -⟩ := h.terms hr ht hid
  have hne : r.status ≠ .pending := by
    rw [hstatus]
    cases t.status <;> simp [TripStatus.onRequest]
  refine ⟨f (o.driverId, o.offeredFare), hst _, ?_, ?_, fun _ => ⟨t, ht, hid⟩, ?_⟩
  · rw [hb, h.offered_pending hr hne]
  · rw [hd, ← hreq, h.offered_accepted ho host]
  · intro u hu huid
    obtain ⟨hrider, hust, q, hq, hqreq, hqst, hfare, hp⟩ := h.terms hr hu huid
    obtain rfl := h.accepted_unique q hq o ho hqst host (hqreq.trans hreq.symm)
    exact ⟨hrider, hust, _, by rw [hd]; rfl, hfare, hp⟩

/-- Without a trip there is no deal. -/
private theorem Coherent.shows_noDeal (h : db.Coherent) {r : RideRequest}
    (hnone : ∀ t ∈ db.trips, t.rideRequestId ≠ r.id) {s : Stage Id Fare}
    (hst : r.status = .ofStage s) (hb : db.offered .pending r.id = s.bids) (hd : s.deals = ∅) :
    db.Shows r s := by
  refine ⟨hst, hb, ?_, ?_, fun t ht hid => absurd hid (hnone t ht)⟩
  · rw [hd, Set.eq_empty_iff_forall_notMem]
    rintro b ⟨o, ho, hreq, host, -⟩
    obtain ⟨t, ht, htid, -⟩ := h.accepted_trip o ho host
    exact hnone t ht (htid.trans hreq)
  · rw [hd]
    exact fun hne => absurd hne Set.not_nonempty_empty

/-- Coherent tables show every bargain in some stage. -/
theorem Coherent.shows (h : db.Coherent) {r : RideRequest} (hr : r ∈ db.rideRequests) :
    ∃ s, db.Shows r s := by
  by_cases hex : ∃ t ∈ db.trips, t.rideRequestId = r.id
  · obtain ⟨t, ht, hid⟩ := hex
    have hst := (h.terms hr ht hid).2.1
    cases hts : t.status with
    | matched =>
        exact h.shows_deal hr ht hid .agreed (fun _ => by rw [hst, hts]; rfl) (fun _ => rfl)
          fun _ => rfl
    | started =>
        exact h.shows_deal hr ht hid .underWay (fun _ => by rw [hst, hts]; rfl) (fun _ => rfl)
          fun _ => rfl
    | completed =>
        exact h.shows_deal hr ht hid .settled (fun _ => by rw [hst, hts]; rfl) (fun _ => rfl)
          fun _ => rfl
    | cancelled =>
        refine h.shows_deal hr ht hid (fun d => .calledOff (some d))
          (fun _ => by rw [hst, hts]; rfl) (fun _ => rfl) fun d => ?_
        ext x
        simp [Stage.deals, eq_comm]
  · have hnone : ∀ t ∈ db.trips, t.rideRequestId ≠ r.id := fun t ht hid => hex ⟨t, ht, hid⟩
    by_cases hp : r.status = .pending
    · exact ⟨.bidding (db.offered .pending r.id), h.shows_noDeal hnone hp rfl rfl⟩
    · have hc : r.status = .cancelled := by
        by_contra hc
        obtain ⟨t, ht, hid⟩ := h.request_trip r hr hp hc
        exact hnone t ht hid
      refine ⟨.calledOff none, h.shows_noDeal hnone hc (h.offered_pending hr hp) ?_⟩
      simp [Stage.deals]

/-- Tables that show every bargain in some stage are coherent, the rows being
recorded. -/
theorem Coherent.of_shows (hoffer : ∀ o ∈ db.rideOffers, ∃ r ∈ db.rideRequests,
      r.id = o.rideRequestId)
    (htrip : ∀ t ∈ db.trips, ∃ r ∈ db.rideRequests, r.id = t.rideRequestId)
    (h : ∀ r ∈ db.rideRequests, ∃ s, db.Shows r s) : db.Coherent := by
  have accepted {o : RideOffer} (ho : o ∈ db.rideOffers) (hst : o.status = .accepted) :
      ∃ r ∈ db.rideRequests, r.id = o.rideRequestId ∧ ∃ s, db.Shows r s ∧
        (o.driverId, o.offeredFare) ∈ s.deals := by
    obtain ⟨r, hr, hid⟩ := hoffer o ho
    obtain ⟨s, hs⟩ := h r hr
    refine ⟨r, hr, hid, s, hs, ?_⟩
    rw [← hs.deals]
    exact ⟨o, ho, hid.symm, hst, rfl⟩
  constructor
  · intro t ht
    obtain ⟨r, hr, hid⟩ := htrip t ht
    obtain ⟨s, hs⟩ := h r hr
    obtain ⟨hrider, hst, -⟩ := hs.terms t ht hid.symm
    exact ⟨r, hr, hid, hrider.symm, hst⟩
  · intro r hr hp hc
    obtain ⟨s, hs⟩ := h r hr
    have hst := hs.status
    apply (hs.trip _).imp
    · exact fun t ht => ht
    · cases s with
      | bidding bids => exact absurd hst hp
      | calledOff d => exact absurd hst hc
      | agreed d | underWay d | settled d => exact Set.singleton_nonempty d
  · intro o ho
    obtain ⟨r, hr, hid⟩ := hoffer o ho
    obtain ⟨s, hs⟩ := h r hr
    refine ⟨r, hr, hid, fun hpend => ?_⟩
    have hb : (o.driverId, o.offeredFare) ∈ s.bids := by
      rw [← hs.bids]
      exact ⟨o, ho, hid.symm, hpend, rfl⟩
    cases s with
    | bidding bids => exact hs.status
    | _ => exact absurd hb (Set.notMem_empty _)
  · intro o ho hst
    obtain ⟨r, hr, hid, s, hs, hd⟩ := accepted ho hst
    obtain ⟨t, ht, htid⟩ := hs.trip ⟨_, hd⟩
    obtain ⟨-, -, b, hb, hfare, hp⟩ := hs.terms t ht htid
    obtain rfl := s.deals_subsingleton hb hd
    exact ⟨t, ht, htid.trans hid, hfare.symm, hp⟩
  · intro o ho q hq hst hqst hreq
    obtain ⟨r, hr, hid, s, hs, hd⟩ := accepted ho hst
    have hqd : (q.driverId, q.offeredFare) ∈ s.deals := by
      rw [← hs.deals]
      exact ⟨q, hq, (hid.trans hreq).symm, hqst, rfl⟩
    have heq := s.deals_subsingleton hd hqd
    exact RideOffer.eq_of_request_driver ho hq hreq (Prod.mk.inj heq).1
  · intro t ht
    obtain ⟨r, hr, hid⟩ := htrip t ht
    obtain ⟨s, hs⟩ := h r hr
    obtain ⟨-, -, b, hb, -⟩ := hs.terms t ht hid.symm
    rw [← hs.deals] at hb
    obtain ⟨o, ho, hreq, hst, -⟩ := hb
    exact ⟨o, ho, hreq.trans hid, hst⟩

end Coherent

section Offers
variable {k : RideOffer → RideOffer}

/-- Offers rewritten without new parties or fares are offered under their new status. -/
private theorem mem_offered_rewrites (ho : db.rideOffers.Rewrites k db'.rideOffers)
    (hk : ∀ o, (k o).identity = o.identity) (hfare : ∀ o, (k o).offeredFare = o.offeredFare)
    {status : OfferStatus} {id : Id} {b : Id × Fare} :
    b ∈ db'.offered status id ↔ ∃ o ∈ db.rideOffers, o.rideRequestId = id ∧
      (k o).status = status ∧ (o.driverId, o.offeredFare) = b := by
  constructor
  · rintro ⟨x, hx, hreq, hst, rfl⟩
    obtain ⟨o, hom, rfl⟩ := (ho x).mp hx
    obtain ⟨-, hr, hd⟩ := RideOffer.identity_eq.mp (hk o)
    exact ⟨o, hom, hr.symm.trans hreq, hst, by rw [hd, hfare]⟩
  · rintro ⟨o, hom, hreq, hst, rfl⟩
    obtain ⟨-, hr, hd⟩ := RideOffer.identity_eq.mp (hk o)
    exact ⟨k o, ho.mem hom, hr.trans hreq, hst, by rw [hd, hfare]⟩

private theorem offered_rewrites (ho : db.rideOffers.Rewrites k db'.rideOffers)
    (hk : ∀ o, (k o).identity = o.identity) (hfare : ∀ o, (k o).offeredFare = o.offeredFare)
    {status : OfferStatus} {id : Id}
    (h : ∀ o ∈ db.rideOffers, o.rideRequestId = id → ((k o).status = status ↔ o.status = status)) :
    db'.offered status id = db.offered status id := by
  ext b
  rw [mem_offered_rewrites ho hk hfare]
  constructor
  · rintro ⟨o, hom, hreq, hst, hb⟩
    exact ⟨o, hom, hreq, (h o hom hreq).mp hst, hb⟩
  · rintro ⟨o, hom, hreq, hst, hb⟩
    exact ⟨o, hom, hreq, (h o hom hreq).mpr hst, hb⟩

end Offers

section Steps
variable {r r' : RideRequest} {s s' : Stage Id Fare}

/-- A bargain with the same status, bids and deal is where it was. -/
theorem Shows.stays (hs : db.Shows r s) (hs' : db'.Shows r' s') (hid : r'.id = r.id)
    (hst : r'.status = r.status)
    (hb : db'.offered .pending r.id = db.offered .pending r.id)
    (hd : db'.offered .accepted r.id = db.offered .accepted r.id) :
    Relation.ReflGen Stage.Step s s' := by
  have hbids := hs'.bids
  have hdeals := hs'.deals
  rw [hid, hb, hs.bids] at hbids
  rw [hid, hd, hs.deals] at hdeals
  obtain rfl := stage_ext (hs.status.symm.trans (hst.symm.trans hs'.status)) hbids hdeals
  exact .refl

/-- The stage of a request can be told from its status. -/
theorem Shows.eq_bidding (hs : db.Shows r s) (hst : r.status = .pending) :
    s = .bidding (db.offered .pending r.id) := by
  have hstatus := hs.status
  cases s with
  | bidding bids => rw [hs.bids, Stage.bids]
  | _ => exact RideRequestStatus.noConfusion (hst.symm.trans hstatus)

theorem Shows.eq_agreed (hs : db.Shows r s) (hst : r.status = .matched) : ∃ d, s = .agreed d := by
  have hstatus := hs.status
  cases s with
  | agreed d => exact ⟨d, rfl⟩
  | _ => exact RideRequestStatus.noConfusion (hst.symm.trans hstatus)

theorem Shows.eq_calledOff (hs : db.Shows r s) (hst : r.status = .cancelled) :
    ∃ d, s = .calledOff d := by
  have hstatus := hs.status
  cases s with
  | calledOff d => exact ⟨d, rfl⟩
  | _ => exact RideRequestStatus.noConfusion (hst.symm.trans hstatus)

/-- Tables that keep every request negotiate when each bargain does. -/
theorem Negotiates.of_rewrites {f : RideRequest → RideRequest} (h : db.Coherent)
    (h' : db'.Coherent) (hr : db.rideRequests.Rewrites f db'.rideRequests)
    (hf : ∀ r, (f r).identity = r.identity)
    (hstep : ∀ r ∈ db.rideRequests, ∀ s s', db.Shows r s → db'.Shows (f r) s' →
      Relation.ReflGen Stage.Step s s') : db.Negotiates db' := by
  intro r' hr'
  obtain ⟨r, hrm, rfl⟩ := (hr r').mp hr'
  obtain ⟨s, hs⟩ := h.shows hrm
  obtain ⟨s', hs'⟩ := h'.shows hr'
  exact ⟨s', hs', Or.inr ⟨r, hrm, (RideRequest.identity_eq.mp (hf r)).1.symm, s, hs,
    hstep r hrm s s' hs hs'⟩⟩

theorem Negotiates.of_same (h : db.Coherent) (h' : db'.Coherent)
    (hr : db'.rideRequests = db.rideRequests) (ho : db'.rideOffers = db.rideOffers) :
    db.Negotiates db' := by
  refine .of_rewrites h h' (hr ▸ .refl _) (fun _ => rfl) fun r _ s s' hs hs' => ?_
  exact hs.stays hs' rfl rfl (by rw [offered, offered, ho]) (by rw [offered, offered, ho])

theorem Negotiates.refl (h : db.Coherent) : db.Negotiates db := .of_same h h rfl rfl

private theorem Negotiates.created {q : RideRequest} (h : db.Coherent) (h' : db'.Coherent)
    (he : RequestCreated q db db') (hst : q.status = .pending) : db.Negotiates db' := by
  have hoffered (status : OfferStatus) (id : Id) :
      db'.offered status id = db.offered status id := by
    rw [offered, offered, he.offers]
  intro x hx
  obtain ⟨s', hs'⟩ := h'.shows hx
  refine ⟨s', hs', ?_⟩
  rcases (he.requests x).mp hx with hxm | rfl
  · obtain ⟨s, hs⟩ := h.shows hxm
    exact Or.inr ⟨x, hxm, rfl, s, hs, hs.stays hs' rfl rfl (hoffered _ _) (hoffered _ _)⟩
  · refine Or.inl ⟨he.fresh, ?_⟩
    rw [hs'.eq_bidding hst, hoffered]
    congr 1
    rw [Set.eq_empty_iff_forall_notMem]
    -- Every offer is on a request that was there before.
    rintro b ⟨o, ho, hreq, -⟩
    obtain ⟨y, hy, hid, -⟩ := h.offer_request o ho
    exact he.fresh y hy (hid.trans hreq)

private theorem Negotiates.submitted {rideRequestId driverId uuid : Id} {fare : Fare}
    {offer : RideOffer} (h : db.Coherent) (h' : db'.Coherent)
    (he : UpsertEffect rideRequestId driverId fare uuid db offer db')
    (hst : ∀ r ∈ db.rideRequests, r.id = rideRequestId → r.status = .pending) :
    db.Negotiates db' := by
  refine .of_rewrites h h' (he.requests ▸ .refl _) (fun _ => rfl) fun r hr s s' hs hs' => ?_
  by_cases hid : r.id = rideRequestId
  · rw [hs.eq_bidding (hst r hr hid), hs'.eq_bidding (hst r hr hid)]
    have hbids : db'.offered .pending r.id =
        rebid (db.offered .pending r.id) driverId fare := by
      ext b
      constructor
      · rintro ⟨o, ho, hreq, hpend, rfl⟩
        rcases he.split o ho with ⟨hold, hnot⟩ | rfl
        · exact Or.inr ⟨⟨o, hold, hreq, hpend, rfl⟩, fun hd => hnot ⟨hreq.trans hid, hd⟩⟩
        · left
          rw [he.result_on.2, he.result_fare]
      · rintro (rfl | ⟨⟨o, ho, hreq, hpend, rfl⟩, hd⟩)
        · exact ⟨offer, he.result_mem, he.result_on.1.trans hid.symm, he.result_status,
            by rw [he.result_on.2, he.result_fare]⟩
        · exact ⟨o, he.others o ho fun hon => hd hon.2, hreq, hpend, rfl⟩
    rw [hbids]
    exact .single (.bid driverId fare)
  · have hsame (status : OfferStatus) : db'.offered status r.id = db.offered status r.id := by
      ext b
      constructor
      · rintro ⟨o, ho, hreq, hrest⟩
        rcases he.split o ho with ⟨hold, -⟩ | rfl
        · exact ⟨o, hold, hreq, hrest⟩
        · exact absurd (hreq.symm.trans he.result_on.1) hid
      · rintro ⟨o, ho, hreq, hrest⟩
        exact ⟨o, he.others o ho fun hon => hid (hreq.symm.trans hon.1), hreq, hrest⟩
    exact hs.stays hs' rfl rfl (hsame _) (hsame _)

private theorem Coherent.lapsed {k : RideOffer → RideOffer} (h : db.Coherent)
    (he : OfferEffect k db db') (hk : ∀ o, (k o).Continues o)
    (hpending : ∀ o, (k o).status = .pending → o.status = .pending)
    (haccepted : ∀ o ∈ db.rideOffers, o.status = .accepted → (k o).status = .accepted) :
    db'.Coherent :=
  h.rewrite (he.profiles ▸ .refl _) (he.requests ▸ .refl _) (he.trips ▸ .refl _) he.offers
    (fun _ => rfl) (fun _ => rfl) hk (fun _ _ _ _ _ hst => hst) (fun _ _ hp hc => ⟨hp, hc⟩)
    (fun o _ hst => ⟨hpending o hst, fun _ _ _ hr => hr⟩) haccepted

private theorem Negotiates.lapsed {k : RideOffer → RideOffer} (h : db.Coherent)
    (he : OfferEffect k db db') (hk : ∀ o, (k o).Continues o)
    (hpending : ∀ o, (k o).status = .pending → o.status = .pending)
    (haccepted : ∀ o ∈ db.rideOffers, o.status = .accepted → (k o).status = .accepted) :
    db.Negotiates db' := by
  have h' := h.lapsed he hk hpending haccepted
  refine .of_rewrites h h' (he.requests ▸ .refl _) (fun _ => rfl) fun r hr s s' hs hs' => ?_
  have hsub : db'.offered .pending r.id ⊆ db.offered .pending r.id := by
    intro b hb
    obtain ⟨o, ho, hreq, hst, hb⟩ :=
      (mem_offered_rewrites he.offers (fun o => (hk o).identity) fun o => (hk o).fare).mp hb
    exact ⟨o, ho, hreq, hpending o hst, hb⟩
  have hdeals : db'.offered .accepted r.id = db.offered .accepted r.id :=
    offered_rewrites he.offers (fun o => (hk o).identity) (fun o => (hk o).fare)
      fun o ho _ => ⟨(hk o).accepted, haccepted o ho⟩
  by_cases hst : r.status = .pending
  · rw [hs.eq_bidding hst, hs'.eq_bidding hst]
    exact .single (.lapse hsub)
  · refine hs.stays hs' rfl rfl ?_ hdeals
    rw [h.offered_pending hr hst] at hsub ⊢
    exact Set.subset_empty_iff.mp hsub

private theorem Negotiates.accepted {a : Acceptance} {t : Trip} (h : db.Coherent)
    (h' : db'.Coherent) (he : a.Effect db t db')
    (hst : ∀ r ∈ db.rideRequests, r.id = a.rideRequestId → r.status = .pending)
    {o : RideOffer} (ho : o ∈ db.rideOffers) (hoid : o.id = a.offerId)
    (horeq : o.rideRequestId = a.rideRequestId) (hpend : o.status = .pending) :
    db.Negotiates db' := by
  refine .of_rewrites h h' he.requests a.onRequest_identity fun r hr s s' hs hs' => ?_
  have hrid : (a.onRequest r).id = r.id := (RideRequest.identity_eq.mp (a.onRequest_identity r)).1
  by_cases hid : r.id = a.rideRequestId
  · have hst' : (a.onRequest r).status = .matched := by rw [a.onRequest_status, if_pos hid]
    rw [hs.eq_bidding (hst r hr hid)]
    obtain ⟨d, rfl⟩ := hs'.eq_agreed hst'
    have hd : (o.driverId, o.offeredFare) ∈ (Stage.agreed d : Stage Id Fare).deals := by
      rw [← hs'.deals, hrid, mem_offered_rewrites he.offers a.onOffer_identity a.onOffer_fare]
      exact ⟨o, ho, horeq.trans hid.symm, by rw [Acceptance.onOffer, if_pos hoid], rfl⟩
    exact .single (.accept ⟨o, ho, horeq.trans hid.symm, hpend, hd⟩)
  · have hother (status : OfferStatus) :
        db'.offered status r.id = db.offered status r.id := by
      refine offered_rewrites he.offers a.onOffer_identity a.onOffer_fare fun x hx hreq => ?_
      have hxid : x.id ≠ a.offerId := fun hxid => by
        rw [RideOffer.eq_of_id hx ho (hxid.trans hoid.symm)] at hreq
        exact hid (hreq.symm.trans horeq)
      rw [Acceptance.onOffer, if_neg hxid, if_neg fun hc => hid (hreq.symm.trans hc.1)]
    exact hs.stays hs' hrid (by rw [a.onRequest_status, if_neg hid]) (hother _) (hother _)

private theorem Negotiates.cancelled {c : Cancellation} {r₀ : RideRequest} (h : db.Coherent)
    (h' : db'.Coherent) (he : c.Effect db r₀ db')
    (hst : ∀ r ∈ db.rideRequests, r.id = c.rideRequestId →
      r.status = .pending ∨ r.status = .matched ∨ r.status = .cancelled) :
    db.Negotiates db' := by
  refine .of_rewrites h h' he.requests c.onRequest_identity fun r hr s s' hs hs' => ?_
  have hrid : (c.onRequest r).id = r.id := (RideRequest.identity_eq.mp (c.onRequest_identity r)).1
  have hsame {status : OfferStatus} (hne : status = .accepted ∨ r.id ≠ c.rideRequestId) :
      db'.offered status r.id = db.offered status r.id := by
    refine offered_rewrites he.offers (fun o => (c.onOffer_continues o).identity)
      (fun o => (c.onOffer_continues o).fare) fun o _ hreq => ?_
    unfold Cancellation.onOffer
    split
    · next hc =>
        rcases hne with rfl | hne
        · exact iff_of_false (fun hx => OfferStatus.noConfusion hx)
            fun hx => OfferStatus.noConfusion (hc.2.symm.trans hx)
        · exact absurd (hreq.symm.trans hc.1) hne
    · exact Iff.rfl
  by_cases hid : r.id = c.rideRequestId
  · obtain ⟨x, rfl⟩ := hs'.eq_calledOff (by rw [c.onRequest_status, if_pos hid])
    have hx : {y | x = some y} = s.deals := by
      rw [← hs.deals, ← hsame (Or.inl rfl), ← hrid, hs'.deals]
      rfl
    rcases hst r hr hid with hst | hst | hst
    · obtain rfl := hs.eq_bidding hst
      have hnone : x = none := by
        cases x with
        | none => rfl
        | some y => exact absurd ((Set.ext_iff.mp hx y).mp rfl) (Set.notMem_empty y)
      rw [hnone]
      exact .single .withdraw
    · obtain ⟨d, rfl⟩ := hs.eq_agreed hst
      obtain rfl : x = some d := (Set.ext_iff.mp hx d).mpr rfl
      exact .single (.callOff d)
    · obtain ⟨y, rfl⟩ := hs.eq_calledOff hst
      obtain rfl : x = y := Option.ext fun z => Set.ext_iff.mp hx z
      exact .refl
  · exact hs.stays hs' hrid (by rw [c.onRequest_status, if_neg hid]) (hsame (Or.inr hid))
      (hsame (Or.inl rfl))

private theorem begin_of (hs : RideRequestStatus.ofStage s = .matched)
    (hs' : RideRequestStatus.ofStage s' = .inProgress) (hd : s'.deals = s.deals) :
    Stage.Step s s' := by
  cases s <;> cases s' <;> simp only [RideRequestStatus.ofStage, reduceCtorEq] at hs hs'
  obtain rfl := Set.singleton_injective hd
  exact .begin _

private theorem finish_of (hs : RideRequestStatus.ofStage s = .inProgress)
    (hs' : RideRequestStatus.ofStage s' = .completed) (hd : s'.deals = s.deals) :
    Stage.Step s s' := by
  cases s <;> cases s' <;> simp only [RideRequestStatus.ofStage, reduceCtorEq] at hs hs'
  obtain rfl := Set.singleton_injective hd
  exact .finish _

/-- `start` and `complete`, from the status before or over themselves. -/
private theorem Negotiates.moved {u : TripUpdate} {t : Trip} {onTrip : Trip → Trip}
    {before after : RideRequestStatus} (h : db.Coherent) (h' : db'.Coherent)
    (he : u.Effect onTrip after db t db')
    (hstep : ∀ s s' : Stage Id Fare, .ofStage s = before → .ofStage s' = after →
      s'.deals = s.deals → Stage.Step s s')
    (hst : ∀ r ∈ db.rideRequests, r.id = u.rideRequestId → r.status = before ∨ r.status = after) :
    db.Negotiates db' := by
  refine .of_rewrites h h' he.requests (u.onRequest_identity _) fun r hr s s' hs hs' => ?_
  have hrid : (u.onRequest after r).id = r.id :=
    (RideRequest.identity_eq.mp (u.onRequest_identity _ r)).1
  have hoffered (status : OfferStatus) : db'.offered status r.id = db.offered status r.id := by
    rw [offered, offered, he.offers]
  by_cases hid : r.id = u.rideRequestId
  · have hst' : (u.onRequest after r).status = after := by rw [u.onRequest_status, if_pos hid]
    rcases hst r hr hid with hold | hold
    · refine .single (hstep s s' (hs.status.symm.trans hold) (hs'.status.symm.trans hst') ?_)
      rw [← hs'.deals, hrid, hoffered, hs.deals]
    · exact hs.stays hs' hrid (hst'.trans hold.symm) (hoffered _) (hoffered _)
  · exact hs.stays hs' hrid (by rw [u.onRequest_status, if_neg hid]) (hoffered _) (hoffered _)

/-- Tables that negotiate are coherent again, the rows being recorded. -/
theorem Negotiates.coherent (h : db.Negotiates db')
    (hoffer : ∀ o ∈ db'.rideOffers, ∃ r ∈ db'.rideRequests, r.id = o.rideRequestId)
    (htrip : ∀ t ∈ db'.trips, ∃ r ∈ db'.rideRequests, r.id = t.rideRequestId) :
    db'.Coherent :=
  .of_shows hoffer htrip fun r hr => (h r hr).imp fun _ hs => hs.1

/-- The step of the bargain on a request that was there before. -/
theorem Negotiates.step {f : RideRequest → RideRequest} (h : db.Negotiates db')
    (hr : db.rideRequests.Rewrites f db'.rideRequests) (hf : ∀ r, (f r).identity = r.identity)
    {r : RideRequest} (hrm : r ∈ db.rideRequests) :
    ∃ s s', db.Shows r s ∧ db'.Shows (f r) s' ∧ Relation.ReflGen Stage.Step s s' := by
  have hid : (f r).id = r.id := (RideRequest.identity_eq.mp (hf r)).1
  obtain ⟨s', hs', ⟨hfresh, -⟩ | ⟨q, hq, hqid, s, hs, hstep⟩⟩ := h _ (hr.mem hrm)
  · exact absurd hid.symm (hfresh r hrm)
  · obtain rfl := RideRequest.eq_of_id hq hrm (hqid.trans hid)
    exact ⟨s, s', hs, hs', hstep⟩

end Steps

end RideTables

/-- What each write must find for the bargains to take steps.
* A submission and an acceptance find the request PENDING, an acceptance also
  its offer, at the fare it was read with.
* A cancellation finds its request PENDING, or MATCHED by a trip it had read, or
  already CANCELLED.
* A start finds its trip MATCHED or already STARTED, a completion finds it
  STARTED or already COMPLETED.
* The expiry of an offer does not find it ACCEPTED. -/
def InTime (w : RideWorld) (_ : Invocation) : Stmt → Prop
  | .upsertOffer rideRequestId _ _ _ =>
      ∀ r ∈ (tablesOf w).rideRequests, r.id = rideRequestId → r.status = .pending
  | .acceptBatch a =>
      (∀ r ∈ (tablesOf w).rideRequests, r.id = a.rideRequestId → r.status = .pending) ∧
        ∀ o ∈ (tablesOf w).rideOffers, o.id = a.offerId →
          o.status = .pending ∧ o.offeredFare = a.offeredFare
  | .cancelBatch c =>
      ∀ r ∈ (tablesOf w).rideRequests, r.id = c.rideRequestId →
        r.status = .pending ∨ r.status = .matched ∧ c.tripId ≠ none ∨ r.status = .cancelled
  | .startBatch u =>
      ∀ t ∈ (tablesOf w).trips, t.id = u.tripId → t.status = .matched ∨ t.status = .started
  | .completeBatch u =>
      ∀ t ∈ (tablesOf w).trips, t.id = u.tripId → t.status = .started ∨ t.status = .completed
  | .expireOffer offerId =>
      ∀ o ∈ (tablesOf w).rideOffers, o.id = offerId → o.status ≠ .accepted
  | _ => True

section Commit
variable {cfg : Config} {w : RideWorld} {n : Nat} {i : Invocation} {o : Stmt} {b : o.Res}
  {s : Backend}

/-- The offer and the request of an acceptance that is in time, as they are now. -/
private theorem acceptRead_of_inTime {a : Acceptance} (hk : AcceptKnown a i w)
    (hQ : InTime w i (.acceptBatch a)) : AcceptRead a i (tablesOf w) := by
  obtain ⟨x, hx, hid, hreq, hp⟩ := hk.offer
  obtain ⟨r, hr, hrid, hrider⟩ := hk.request
  obtain ⟨hpend, hfare⟩ := hQ.2 x hx hid
  exact ⟨hk.inv, ⟨x, hx, hid, hreq, hfare, hpend, hp⟩, r, hr, hrid, hrider, hQ.1 r hr hrid⟩

/-- A cancelled request and its trip go together, whichever of them was read. -/
private theorem cancel_coherent {c : Cancellation} {r₀ : RideRequest} {db' : RideTables}
    (h : (tablesOf w).Coherent) (hJ : Seen Recorded Evolves w (CancelRead c i))
    (he : c.Effect (tablesOf w) r₀ db') (hQ : InTime w i (.cancelBatch c)) : db'.Coherent := by
  have htrip {r : RideRequest} (hr : r ∈ (tablesOf w).rideRequests) (hid : r.id = c.rideRequestId)
      {t : Trip} (ht : t ∈ (tablesOf w).trips) (hreq : t.rideRequestId = r.id)
      (hst : r.status = t.status.onRequest) : (c.onTrip t).status = .cancelled := by
    unfold Cancellation.onTrip
    cases hc : c.tripId with
    | some id =>
        rw [(cancelKnown_of_seen hJ hc ht).mpr (hreq.trans hid), if_pos rfl]
    | none =>
        rw [if_neg (by simp)]
        rcases hQ r hr hid with hp | ⟨-, hsome⟩ | hcanc
        · exact absurd hreq (((h.consistent hr).pending hp).1 t ht)
        · exact absurd hc hsome
        · rw [hst] at hcanc
          cases hts : t.status <;> simp [hts, TripStatus.onRequest] at hcanc ⊢
  refine h.rewrite (he.profiles ▸ .refl _) he.requests he.trips he.offers c.onRequest_identity
    c.onTrip_terms c.onOffer_continues (fun r hr t ht hid hst => ?_) (fun r _ hp hc => ?_)
    (fun x _ hst => ?_) fun x _ hst => ?_
  · rw [c.onRequest_status]
    by_cases hreq : r.id = c.rideRequestId
    · rw [if_pos hreq, htrip hr hreq ht hid.symm hst]
      rfl
    · rw [if_neg hreq, Cancellation.onTrip, if_neg]
      · exact hst
      · exact fun hc => hreq (hid.trans ((cancelKnown_of_seen hJ hc ht).mp rfl))
  · rw [c.onRequest_status] at hp hc
    split at hc
    · exact absurd rfl hc
    · next hreq =>
        rw [if_neg hreq] at hp
        exact ⟨hp, hc⟩
  · unfold Cancellation.onOffer at hst
    split at hst
    · cases hst
    · next hno =>
        refine ⟨hst, fun r _ hid hr => ?_⟩
        rw [c.onRequest_status, if_neg fun hreq => hno ⟨hid.symm.trans hreq, hst⟩]
        exact hr
  · rw [Cancellation.onOffer, if_neg fun hc => OfferStatus.noConfusion (hc.2.symm.trans hst)]
    exact hst

/-- The request of a trip that is started or completed. -/
private theorem tripRequest {u : TripUpdate} {status : TripStatus} {inv : Id → Id → Invocation}
    (h : (tablesOf w).Coherent) (hJ : Seen Recorded Evolves w (TripRead u status inv i)) :
    ∃ t ∈ (tablesOf w).trips, t.id = u.tripId ∧ t.rideRequestId = u.rideRequestId ∧
      ∀ r ∈ (tablesOf w).rideRequests, r.id = u.rideRequestId →
        r.status = t.status.onRequest := by
  obtain ⟨w₀, -, he, x, hx, hid, hreq, -⟩ := id hJ
  obtain ⟨t, ht, htx⟩ := he.tables.trips x hx
  have htx := Trip.terms_eq.mp htx
  refine ⟨t, ht, htx.1.trans hid, htx.2.1.trans hreq, fun r hr hrid => ?_⟩
  obtain ⟨r', hr', hid', -, hst⟩ := h.trip_request t ht
  rwa [RideRequest.eq_of_id hr hr' (hrid.trans (hid'.trans (htx.2.1.trans hreq)).symm)]

/-- A write that is in time lets every bargain take a step or stay. -/
theorem negotiates_of_inTime (hJ : Issued Recorded Evolves w i o)
    (h : (tablesOf w).Coherent) (hQ : InTime w i o)
    (hx : Backend.exec cfg o w.shared = .ok (b, s)) : (tablesOf w).Negotiates s.tables := by
  have hwrote := Backend.exec_wrote hx
  generalize htb : s.tables = db' at hwrote
  cases hwrote with
  | nothing ho => exact .refl h
  | createDriverProfile he =>
      exact .of_same h (h.profiles he.profiles.persists he.requests he.offers he.trips)
        he.requests he.offers
  | updateDriverProfile ho he hf =>
      refine .of_same h (h.profiles (he.profiles.persists fun p => ?_) he.requests he.offers
        he.trips) he.requests he.offers
      simp [hf]
  | createRideRequest he => exact .created h (h.createRideRequest he hJ.1) he hJ.1
  | @upsertOffer rideRequestId _ _ _ _ _ _ he =>
      have hJ' : Seen Recorded Evolves w fun db =>
        ∃ r ∈ db.rideRequests, r.id = rideRequestId ∧ r.status = .pending := hJ.2
      obtain ⟨w₀, -, hev, q, hq, hid, -⟩ := hJ'
      obtain ⟨r, hr, hrq⟩ := hev.tables.requests q hq
      have hrid : r.id = rideRequestId := (RideRequest.identity_eq.mp hrq).1.trans hid
      exact .submitted h (h.upsertOffer he ⟨r, hr, hrid, hQ r hr hrid⟩) he hQ
  | acceptBatch he =>
      have hread := acceptRead_of_inTime (acceptKnown_of_seen hJ) hQ
      obtain ⟨x, hx, hid, hreq, -, hpend, -⟩ := hread.offer
      exact .accepted h (h.acceptBatch he hread) he hQ.1 hx hid hreq hpend
  | cancelBatch he =>
      refine .cancelled h (cancel_coherent h hJ he hQ) he fun r hr hid => ?_
      exact (hQ r hr hid).imp_right (Or.imp_left And.left)
  | @startBatch u _ _ _ he =>
      obtain ⟨t, ht, hid, hreq, hst⟩ := tripRequest h hJ
      refine .moved h (h.tripUpdate .started he u.startTrip_terms
        u.startTrip_status ⟨t, ht, hid, hreq, ?_⟩) he (fun _ _ => RideTables.begin_of)
        fun r hr hrid => ?_
      · rcases hQ t ht hid with hts | hts <;> simp [hts]
      · rw [hst r hr hrid]
        exact (hQ t ht hid).imp (congrArg _) (congrArg _)
  | @completeBatch u _ _ _ he =>
      obtain ⟨t, ht, hid, hreq, hst⟩ := tripRequest h hJ
      refine .moved h (h.tripUpdate .completed he u.completeTrip_terms
        u.completeTrip_status ⟨t, ht, hid, hreq, ?_⟩) he (fun _ _ => RideTables.finish_of)
        fun r hr hrid => ?_
      · rcases hQ t ht hid with hts | hts <;> simp [hts]
      · rw [hst r hr hrid]
        exact (hQ t ht hid).imp (congrArg _) (congrArg _)
  | @expireOffer offerId _ _ he =>
      refine .lapsed h he (expireOfferRow_continues offerId) (fun x hst => ?_) fun x hx hst => ?_
      · unfold expireOfferRow at hst
        split at hst
        · cases hst
        · exact hst
      · rw [expireOfferRow, if_neg fun hid => hQ x hx hid hst]
        exact hst
  | @expireDriverOffers driverProfileId _ _ he =>
      refine .lapsed h he (expireDriverOfferRow_continues driverProfileId) (fun x hst => ?_)
        fun x _ hst => ?_
      · unfold expireDriverOfferRow at hst
        split at hst
        · cases hst
        · exact hst
      · rw [expireDriverOfferRow, if_neg fun hc => OfferStatus.noConfusion (hc.2.symm.trans hst)]
        exact hst

/-- An acceptance over a request or an offer that has moved on is no step. -/
private theorem accept_inTime {a : Acceptance} {t : Trip} (hk : AcceptKnown a i w)
    (he : a.Effect (tablesOf w) t s.tables)
    (h' : s.tables.Coherent) (hN : (tablesOf w).Negotiates s.tables) :
    InTime w i (.acceptBatch a) := by
  obtain ⟨x, hx, hxid, hxreq, -⟩ := hk.offer
  obtain ⟨r, hr, hrid, -⟩ := hk.request
  obtain ⟨s₀, s₁, hs, hs', hstep⟩ := hN.step he.requests a.onRequest_identity hr
  have hid := (RideRequest.identity_eq.mp (a.onRequest_identity r)).1
  obtain ⟨d, rfl⟩ := hs'.eq_agreed (by rw [a.onRequest_status, if_pos hrid])
  -- The offer is accepted now, so it is the deal.
  have haccepted : (a.onOffer x).status = .accepted := by rw [Acceptance.onOffer, if_pos hxid]
  have hoffer := RideOffer.identity_eq.mp (a.onOffer_identity x)
  have hd : (x.driverId, x.offeredFare) ∈ (Stage.agreed d : Stage Id Fare).deals := by
    rw [← hs'.deals, hid]
    exact ⟨a.onOffer x, he.offers.mem hx, hoffer.2.1.trans (hxreq.trans hrid.symm), haccepted,
      by rw [hoffer.2.2, a.onOffer_fare]⟩
  obtain ⟨bids, rfl, hbid⟩ : ∃ bids, s₀ = .bidding bids ∧ d ∈ bids := by
    cases hstep with
    | refl =>
        obtain ⟨u, hu, hureq⟩ := hs.trip (Set.singleton_nonempty d)
        exact absurd (hureq.trans hrid) (he.fresh u hu)
    | single hstep =>
        cases hstep with
        | accept hbid => exact ⟨_, rfl, hbid⟩
  have hpend : r.status = .pending := hs.status
  obtain ⟨y, hy, hyreq, hyst, hyd⟩ : d ∈ (tablesOf w).offered .pending r.id := by
    rw [hs.bids]
    exact hbid
  rw [← (hd : _ = d)] at hyd
  obtain rfl := RideOffer.eq_of_request_driver hy hx (hyreq.trans (hrid.trans hxreq.symm))
    (Prod.mk.inj hyd).1
  refine ⟨fun q hq hqid => ?_, fun o ho hoid => ?_⟩
  · rwa [RideRequest.eq_of_id hq hr (hqid.trans hrid.symm)]
  · obtain rfl := RideOffer.eq_of_id ho hy (hoid.trans hxid.symm)
    refine ⟨hyst, ?_⟩
    obtain ⟨u, hu, hureq, hfare, -⟩ := h'.accepted_trip _ (he.offers.mem hy) haccepted
    obtain rfl := Trip.eq_of_rideRequestId hu he.trips.mem_new
      (hureq.trans (hoffer.2.1.trans hxreq))
    rw [← a.onOffer_fare, ← hfare]
    rfl

/-- Nor is a cancellation of a ride under way, or of a trip it had not read. -/
private theorem cancel_inTime {c : Cancellation} {r₀ : RideRequest}
    (he : c.Effect (tablesOf w) r₀ s.tables) (hN : (tablesOf w).Negotiates s.tables) :
    InTime w i (.cancelBatch c) := by
  intro r hr hid
  obtain ⟨s₀, s₁, hs, hs', hstep⟩ := hN.step he.requests c.onRequest_identity hr
  have hst' : (c.onRequest r).status = .cancelled := by rw [c.onRequest_status, if_pos hid]
  obtain ⟨d, rfl⟩ := hs'.eq_calledOff hst'
  cases hstep with
  | refl => exact Or.inr (Or.inr hs.status)
  | single hstep =>
      cases hstep with
      | withdraw => exact Or.inl hs.status
      | callOff d =>
          refine Or.inr (Or.inl ⟨hs.status, fun hnone => ?_⟩)
          -- The trip would be left as it was, under a cancelled request.
          obtain ⟨t, ht, htreq⟩ := hs.trip (Set.singleton_nonempty d)
          have ht' := he.trips.mem ht
          rw [Cancellation.onTrip, if_neg (by simp [hnone])] at ht'
          have hreq := (RideRequest.identity_eq.mp (c.onRequest_identity r)).1
          have hkept := (hs.terms t ht htreq).2.1
          have hmoved := (hs'.terms t ht' (htreq.trans hreq.symm)).2.1
          rw [hst', ← hkept, hs.status] at hmoved
          cases hmoved

/-- A trip that is started or completed is moved to the status after the one it has. -/
private theorem moved_inTime {u : TripUpdate} {t : Trip} {onTrip : Trip → Trip}
    {inv : Id → Id → Invocation} {status : TripStatus} (before after : TripStatus)
    (h : (tablesOf w).Coherent) (hJ : Seen Recorded Evolves w (TripRead u status inv i))
    (he : u.Effect onTrip after.onRequest (tablesOf w) t s.tables)
    (hN : (tablesOf w).Negotiates s.tables)
    (hstep : ∀ s s' : Stage Id Fare, Stage.Step s s' → .ofStage s' = after.onRequest →
      .ofStage s = before.onRequest) :
    ∀ t ∈ (tablesOf w).trips, t.id = u.tripId → t.status = before ∨ t.status = after := by
  intro x hx hxid
  obtain ⟨y, hy, hyid, hreq, hst⟩ := tripRequest h hJ
  obtain rfl := Trip.eq_of_id hx hy (hxid.trans hyid.symm)
  obtain ⟨r, hr, hrid, -⟩ := h.trip_request x hx
  have hr' := hst r hr (hrid.trans hreq)
  obtain ⟨s₀, s₁, hs, hs', hmove⟩ := hN.step he.requests (u.onRequest_identity _) hr
  have hs₁ : RideRequestStatus.ofStage s₁ = after.onRequest := by
    rw [← hs'.status, u.onRequest_status, if_pos (hrid.trans hreq)]
  have onRequest_inj {a b : TripStatus} (hab : a.onRequest = b.onRequest) : a = b := by
    cases a <;> cases b <;> first | rfl | cases hab
  cases hmove with
  | refl => exact Or.inr (onRequest_inj (hr'.symm.trans (hs.status.trans hs₁)))
  | single hmove =>
      exact Or.inl (onRequest_inj (hr'.symm.trans (hs.status.trans (hstep _ _ hmove hs₁))))

/-- An accepted offer does not expire in a bargain: deals are kept. -/
private theorem expire_inTime {offerId : Id}
    (h : (tablesOf w).Coherent) (he : OfferEffect (expireOfferRow offerId) (tablesOf w) s.tables)
    (hN : (tablesOf w).Negotiates s.tables) : InTime w i (.expireOffer offerId) := by
  intro x hx hid hst
  obtain ⟨r, hr, hrid, -⟩ := h.offer_request x hx
  obtain ⟨s₀, s₁, hs, hs', hstep⟩ := hN.step (f := fun r => r) (he.requests ▸ .refl _)
    (fun _ => rfl) hr
  have hd : (x.driverId, x.offeredFare) ∈ s₁.deals := by
    have hd : (x.driverId, x.offeredFare) ∈ s₀.deals := by
      rw [← hs.deals]
      exact ⟨x, hx, hrid.symm, hst, rfl⟩
    cases hstep with
    | refl => exact hd
    | single hstep => exact hstep.deals_kept hd
  rw [← hs'.deals] at hd
  obtain ⟨z, hz, hzreq, hzst, hzd⟩ := hd
  obtain ⟨y, hy, rfl⟩ := (he.offers z).mp hz
  have hyid := RideOffer.identity_eq.mp (expireOfferRow_continues offerId y).identity
  have hdriver : y.driverId = x.driverId := hyid.2.2.symm.trans (Prod.mk.inj hzd).1
  obtain rfl := RideOffer.eq_of_request_driver hy hx
    (hyid.2.1.symm.trans (hzreq.trans hrid)) hdriver
  rw [expireOfferRow, if_pos hid] at hzst
  cases hzst

/-- Only writes that are in time let every bargain take a step or stay. -/
theorem inTime_of_negotiates (hR : Recorded w) (hJ : Issued Recorded Evolves w i o)
    (h : (tablesOf w).Coherent) (hx : Backend.exec cfg o w.shared = .ok (b, s))
    (hN : (tablesOf w).Negotiates s.tables) : InTime w i o := by
  have hR' : Recorded (w.commit 0 i o s) := recorded_commit hR hJ hx
  have h' : s.tables.Coherent := hN.coherent hR'.offer_request fun t ht =>
    (hR'.trip_request t ht).imp fun _ hr => ⟨hr.1, hr.2.1⟩
  have hwrote := Backend.exec_wrote hx
  generalize htb : s.tables = db' at hwrote
  cases hwrote with
  | nothing ho => cases o <;> trivial
  | updateDriverProfile ho he hf => cases o <;> trivial
  | createDriverProfile he => trivial
  | createRideRequest he => trivial
  | upsertOffer he =>
      subst htb
      intro r hr hid
      obtain ⟨q, hq, hqid, hpend⟩ := h'.offer_request _ he.result_mem
      rw [he.requests] at hq
      obtain rfl := RideRequest.eq_of_id hq hr (hqid.trans (he.result_on.1.trans hid.symm))
      exact hpend he.result_status
  | acceptBatch he =>
      subst htb
      exact accept_inTime (acceptKnown_of_seen hJ) he h' hN
  | cancelBatch he =>
      subst htb
      exact cancel_inTime he hN
  | startBatch he =>
      subst htb
      refine moved_inTime .matched .started h hJ he hN ?_
      intro s₀ s₁ hstep hst
      cases hstep <;> first | rfl | cases hst
  | completeBatch he =>
      subst htb
      refine moved_inTime .started .completed h hJ he hN ?_
      intro s₀ s₁ hstep hst
      cases hstep <;> first | rfl | cases hst
  | expireOffer he =>
      subst htb
      exact expire_inTime h he hN
  | expireDriverOffers he => trivial

end Commit

/-- Every bargain is shown in some stage. -/
def RideTables.Legible (db : RideTables) : Prop := ∀ r ∈ db.rideRequests, ∃ s, db.Shows r s

/-- Recorded and legible tables are coherent. -/
theorem Recorded.coherent {w : RideWorld} (h : Recorded w) (hK : (tablesOf w).Legible) :
    (tablesOf w).Coherent :=
  .of_shows h.offer_request (fun t ht => (h.trip_request t ht).imp fun _ hr => ⟨hr.1, hr.2.1⟩) hK

/-- However calls are interleaved, the run is a run of the bargains, each write
one step of each of them at most, if and only if every write is in time. -/
theorem negotiates_iff (cfg : Config) (ms : List RideMove) :
    AllSteps (rideSystem cfg) (fun w w' => (tablesOf w).Negotiates (tablesOf w')) ridePool ms ↔
      AllCommits (rideSystem cfg) InTime ridePool ms := by
  refine (ride_discipline cfg).allSteps_iff (K := fun w => (tablesOf w).Legible)
    (fun w hK r hr => ?_) (fun h r hr => (h r hr).imp fun _ hs => hs.1)
    (fun hR hJ hK hx => ?_) (ridePool_sound cfg []) (fun r hr => ?_) ms
  · obtain ⟨s, hs⟩ := hK r hr
    exact ⟨s, hs, Or.inr ⟨r, hr, rfl, s, hs, .refl⟩⟩
  · have h := hR.coherent hK
    exact ⟨inTime_of_negotiates hR hJ h hx, fun hQ => negotiates_of_inTime hJ h hQ hx⟩
  · exact absurd hr (Table.not_mem_empty r)

section Served
variable {cfg : Config} {w : RideWorld} {n : Nat} {i : Invocation} {o : Stmt} {b : o.Res}
  {s : Backend}

/-- A call that runs alone is always in time. -/
theorem inTime_inTurn (hJ : IssuedInTurn w i o) (h : (tablesOf w).Coherent) : InTime w i o := by
  cases o with
  | upsertOffer rideRequestId _ _ _ =>
      intro r hr hid
      have hJ' : Seen Recorded Undisturbed w fun db =>
        ∃ r ∈ db.rideRequests, r.id = rideRequestId ∧ r.status = .pending := hJ.2
      obtain ⟨q, hq, hqid, hst⟩ := hJ'.inTurn
      rwa [RideRequest.eq_of_id hr hq (hid.trans hqid.symm)]
  | acceptBatch a =>
      have hread : AcceptRead a i (tablesOf w) := Seen.inTurn hJ
      obtain ⟨x, hx, hxid, -, hfare, hst, -⟩ := hread.offer
      obtain ⟨q, hq, hqid, -, hqst⟩ := hread.request
      refine ⟨fun r hr hid => ?_, fun y hy hid => ?_⟩
      · rwa [RideRequest.eq_of_id hr hq (hid.trans hqid.symm)]
      · rw [RideOffer.eq_of_id hy hx (hid.trans hxid.symm)]
        exact ⟨hst, hfare⟩
  | cancelBatch c =>
      have hread : CancelRead c i (tablesOf w) := Seen.inTurn hJ
      obtain ⟨q, hq, hqid, hst, -⟩ := hread.request
      intro r hr hid
      rw [RideRequest.eq_of_id hr hq (hid.trans hqid.symm)]
      refine hst.imp id fun hm => Or.inl ⟨hm, fun hnone => ?_⟩
      obtain ⟨t, ht, htreq⟩ := h.request_trip q hq (by rw [hm]; decide) (by rw [hm]; decide)
      exact hread.noTrip hnone t ht (htreq.trans hqid)
  | startBatch u =>
      obtain ⟨x, hx, hxid, -, hst, -⟩ := Seen.inTurn hJ
      intro t ht hid
      exact Or.inl (by rwa [Trip.eq_of_id ht hx (hid.trans hxid.symm)])
  | completeBatch u =>
      obtain ⟨x, hx, hxid, -, hst, -⟩ := Seen.inTurn hJ
      intro t ht hid
      exact Or.inl (by rwa [Trip.eq_of_id ht hx (hid.trans hxid.symm)])
  | expireOffer offerId =>
      have hJ' : Seen Recorded Undisturbed w fun db =>
        ∃ o ∈ db.rideOffers, o.id = offerId ∧ o.status = .pending := hJ
      obtain ⟨x, hx, hxid, hst⟩ := hJ'.inTurn
      intro y hy hid
      rw [RideOffer.eq_of_id hy hx (hid.trans hxid.symm), hst]
      decide
  | _ => trivial

/-- A request is in one stage of its bargain only. -/
theorem RideTables.Shows.unique {db : RideTables} {r : RideRequest} {s s' : Stage Id Fare}
    (h : db.Shows r s) (h' : db.Shows r s') : s = s' :=
  stage_ext (h.status.symm.trans h'.status) (h.bids.symm.trans h'.bids)
    (h.deals.symm.trans h'.deals)

/-- Every bargain has come where it is from the stage it was in, or from no
bids if there was none on its request. -/
def RideTables.Led (db db' : RideTables) : Prop :=
  ∀ r' ∈ db'.rideRequests, ∃ s', db'.Shows r' s' ∧
    ((∀ r ∈ db.rideRequests, r.id ≠ r'.id) ∧ Stage.Leads (.bidding ∅) s' ∨
      ∃ r ∈ db.rideRequests, r.id = r'.id ∧ ∃ s, db.Shows r s ∧ Stage.Leads s s')

theorem RideTables.Led.refl {db : RideTables} (h : db.Coherent) : db.Led db := by
  intro r hr
  obtain ⟨s, hs⟩ := h.shows hr
  exact ⟨s, hs, Or.inr ⟨r, hr, rfl, s, hs, .refl⟩⟩

theorem RideTables.Led.step {db db' db'' : RideTables} (h : db.Led db')
    (hp : db.rideRequests.Persists RideRequest.identity db'.rideRequests)
    (hN : db'.Negotiates db'') : db.Led db'' := by
  intro r'' hr''
  obtain ⟨s'', hs'', ⟨hfresh, rfl⟩ | ⟨r', hr', hid, t, ht, hstep⟩⟩ := hN r'' hr''
  · refine ⟨_, hs'', Or.inl ⟨fun r hr hrid => ?_, .refl⟩⟩
    obtain ⟨r', hr', hrr⟩ := hp r hr
    exact hfresh r' hr' ((RideRequest.identity_eq.mp hrr).1.trans hrid)
  · obtain ⟨s', hs', hfrom⟩ := h r' hr'
    obtain rfl := hs'.unique ht
    refine ⟨s'', hs'', ?_⟩
    rcases hfrom with ⟨hfresh, hled⟩ | ⟨r, hr, hrid, s, hs, hled⟩
    · exact Or.inl ⟨hid ▸ hfresh, hled.trans hstep.to_reflTransGen⟩
    · exact Or.inr ⟨r, hr, hrid.trans hid, s, hs, hled.trans hstep.to_reflTransGen⟩

/-- Whole calls, however many of their statements fail, lead every bargain on. -/
theorem led_served (cfg : Config) {p : RidePool} (hR : Recorded p.world)
    (h : (tablesOf p.world).Coherent)
    (calls : List (Invocation × List Bool)) :
    Recorded (p.serveAll (rideSystem cfg) calls).world ∧
      (tablesOf (p.serveAll (rideSystem cfg) calls).world).Coherent ∧
      (tablesOf p.world).Grows (tablesOf (p.serveAll (rideSystem cfg) calls).world) ∧
      (tablesOf p.world).Led (tablesOf (p.serveAll (rideSystem cfg) calls).world) := by
  let K : RideWorld → Prop := fun w => (tablesOf w).Coherent ∧
    (tablesOf p.world).Grows (tablesOf w) ∧ (tablesOf p.world).Led (tablesOf w)
  refine inTurn_served (K := K) (fun {w n i o b s} _ hw hJ hx => ?_) hR ⟨h, .refl _, .refl h⟩ calls
  have hN := negotiates_of_inTime hJ.evolves hw.1 (inTime_inTurn hJ hw.1) hx
  exact ⟨coherent_commit hw.1 hJ.sameTables hx, hw.2.1.trans (evolves_commit (n := n) hx).tables,
    hw.2.2.step hw.2.1.requests hN⟩

/-- After any number of whole calls every request shows a stage that a bargain
leads to from no bids, and later calls lead it on from there: a deal that was
struck stays the deal, and a bargain that has ended stays as it is. -/
theorem bargains_served (cfg : Config) (calls more : List (Invocation × List Bool))
    {r : RideRequest}
    (hr : r ∈ (tablesOf (ridePool.serveAll (rideSystem cfg) calls).world).rideRequests) :
    ∃ s, (tablesOf (ridePool.serveAll (rideSystem cfg) calls).world).Shows r s ∧
      Stage.Leads (.bidding ∅) s ∧ s.OneBidEach ∧
      ∃ r' ∈ (tablesOf ((ridePool.serveAll (rideSystem cfg) calls).serveAll
          (rideSystem cfg) more).world).rideRequests, r'.id = r.id ∧
        ∃ s', (tablesOf ((ridePool.serveAll (rideSystem cfg) calls).serveAll
            (rideSystem cfg) more).world).Shows r' s' ∧
          Stage.Leads s s' ∧ (s.deals.Nonempty → s'.deals = s.deals) ∧ (s.Ended → s' = s) := by
  obtain ⟨hR, hc, -, hled⟩ := led_served cfg (p := ridePool) recorded_init
    RideTables.Coherent.empty calls
  obtain ⟨-, -, hgrows, hled'⟩ := led_served cfg hR hc more
  obtain ⟨s, hs, hfrom⟩ := hled r hr
  have hbegun : Stage.Leads (.bidding ∅) s := by
    rcases hfrom with ⟨-, hfrom⟩ | ⟨q, hq, -⟩
    · exact hfrom
    · exact absurd hq (Table.not_mem_empty q)
  obtain ⟨r', hr', hrr⟩ := hgrows.requests r hr
  have hid : r'.id = r.id := (RideRequest.identity_eq.mp hrr).1
  obtain ⟨s', hs', ⟨hfresh, -⟩ | ⟨q, hq, hqid, t, ht, hlead⟩⟩ := hled' r' hr'
  · exact absurd hid.symm (hfresh r hr)
  · obtain rfl := RideRequest.eq_of_id hq hr (hqid.trans hid)
    obtain rfl := hs.unique ht
    exact ⟨s, hs, hbegun, Stage.oneBidEach_of_leads hbegun, r', hr', hid, s', hs', hlead,
      hlead.deals_eq, hlead.eq_of_ended⟩

/-- A request with one bid, on which the rider then strikes a deal. -/
def dealStruck : List (Invocation × List Bool) × List (Invocation × List Bool) :=
  ([(.verifyDriver "driver" "application" "profile", []),
    (.create "rider" ⟨6, 3, 7, 4, 1500⟩ "request", []),
    (.submitOffer "driver" "request" 1800 "offer", [])],
   [(.acceptOffer "rider" "offer" "trip", [])])

theorem bargains_served_dealStruck :
    ∃ s, (tablesOf (ridePool.serveAll (rideSystem .default) dealStruck.1).world).Shows
        ⟨"request", "rider", 6, 3, 7, 4, 1500, .pending, none, none⟩ s ∧
      Stage.Leads (.bidding ∅) s ∧ s.OneBidEach ∧
      ∃ r' ∈ (tablesOf ((ridePool.serveAll (rideSystem .default) dealStruck.1).serveAll
          (rideSystem .default) dealStruck.2).world).rideRequests, r'.id = "request" ∧
        ∃ s', (tablesOf ((ridePool.serveAll (rideSystem .default) dealStruck.1).serveAll
            (rideSystem .default) dealStruck.2).world).Shows r' s' ∧
          Stage.Leads s s' ∧ (s.deals.Nonempty → s'.deals = s.deals) ∧ (s.Ended → s' = s) :=
  bargains_served .default dealStruck.1 dealStruck.2 (by decide +kernel)

end Served

end Reedr
