import Reedr.Ride.Consistency

/-!
# Who is told of a cancellation

A cancelled request concerns its rider, the drivers bidding on it and, once it is
matched, the driver on the way. The gateway tells the rider and the drivers whose
offers were PENDING; the offer of the driver on the way no longer is.
-/

namespace Reedr
open Relational Interleaving

/-- A cancellation of the request concerns this user, as the tables are before it. -/
inductive RideTables.Affected (db : RideTables) (id : Id) : Id → Prop where
  | rider {r} (hr : r ∈ db.rideRequests) (hid : r.id = id) : Affected db id r.riderId
  | bidder {o p} (ho : o ∈ db.rideOffers) (hreq : o.rideRequestId = id)
      (hst : o.status = .pending) (hp : p ∈ db.driverProfiles) (hpid : p.id = o.driverId) :
      Affected db id p.userId
  | driver {t} (ht : t ∈ db.trips) (hreq : t.rideRequestId = id) : Affected db id t.driverId

/-- What has been sent between two states of the gateway. -/
def Gateway.sentSince (before after : Gateway) : List (Id × Message) :=
  after.sent.drop before.sent.length

/-- The users to whose rooms `ride:request:cancelled` has been sent in between. -/
def Gateway.ToldOfCancellation (before after : Gateway) (id userId : Id) : Prop :=
  (userId, .rideRequestCancelled id) ∈ before.sentSince after

instance (before after : Gateway) (id userId : Id) :
    Decidable (before.ToldOfCancellation after id userId) :=
  inferInstanceAs (Decidable (_ ∈ before.sentSince after))

theorem Gateway.sent_rideRequestCancelled (haversineMeters : Coord → Coord → Coord → Coord → Rat)
    (g : Gateway) (r : RideRequest) (affectedDriverUserIds : List Id) :
    (g.handle haversineMeters (.rideRequestCancelled r affectedDriverUserIds)).sent =
      g.sent ++ (r.riderId :: affectedDriverUserIds).map
        fun userId => (userId, .rideRequestCancelled r.id) := by
  simp [handle, send, sendAll_eq]

/-- The drivers whose offers on the request are PENDING, as `cancel` computes them. -/
def RideTables.bidders (db : RideTables) (id : Id) : List Id :=
  (((db.rideOffers.findMany fun o => o.rideRequestId = id).filterMap db.withDriver).filter
    fun o => o.offer.status = .pending).map fun o => o.driverUserId

theorem RideTables.mem_bidders {db : RideTables} {id userId : Id} :
    userId ∈ db.bidders id ↔ ∃ o ∈ db.rideOffers, o.rideRequestId = id ∧ o.status = .pending ∧
      ∃ p ∈ db.driverProfiles, p.id = o.driverId ∧ p.userId = userId := by
  unfold bidders
  constructor
  · intro h
    obtain ⟨x, hx, rfl⟩ := List.mem_map.mp h
    obtain ⟨hx, hst⟩ := List.mem_filter.mp hx
    obtain ⟨o, ho, hjoin⟩ := List.mem_filterMap.mp hx
    obtain ⟨ho, hreq⟩ := Table.mem_findMany.mp ho
    obtain ⟨p, hp, rfl⟩ := Option.map_eq_some_iff.mp hjoin
    obtain ⟨hp, hpid⟩ := Table.find?_some hp
    exact ⟨o, ho, of_decide_eq_true hreq, of_decide_eq_true hst, p, hp,
      of_decide_eq_true hpid, rfl⟩
  · rintro ⟨o, ho, hreq, hst, p, hp, hpid, rfl⟩
    have hfind : db.findDriverProfile o.driverId = some p := by
      apply Table.find?_of_unique hp (decide_eq_true hpid)
      intro q hq hqid
      exact DriverProfile.eq_of_id hq hp ((of_decide_eq_true hqid).trans hpid.symm)
    apply List.mem_map.mpr
    refine ⟨⟨o, p.userId⟩, List.mem_filter.mpr ⟨?_, decide_eq_true hst⟩, rfl⟩
    apply List.mem_filterMap.mpr
    refine ⟨o, Table.mem_findMany.mpr ⟨ho, decide_eq_true hreq⟩, ?_⟩
    simp [withDriver, hfind]

/-- What `after` has sent since `before` is the notice of a cancellation, to the rider and
to the bidders of a request. -/
def NoticeSent (before after : Backend) (id : Id) : Prop :=
  ∃ r ∈ before.tables.rideRequests, r.id = id ∧
    after.gateway.sent = before.gateway.sent ++
      (r.riderId :: before.tables.bidders id).map fun userId => (userId, .rideRequestCancelled id)

/-- In between the request has been cancelled. -/
def RideTables.CancelledSince (before after : RideTables) (id : Id) : Prop :=
  (∃ r ∈ before.rideRequests, r.id = id ∧ r.status ≠ .cancelled) ∧
    ∃ r ∈ after.rideRequests, r.id = id ∧ r.status = .cancelled

instance (before after : RideTables) (id : Id) : Decidable (before.CancelledSince after id) :=
  inferInstanceAs (Decidable (_ ∧ _))

theorem RideTables.not_cancelledSince_self (db : RideTables) (id : Id) :
    ¬ db.CancelledSince db id := by
  rintro ⟨⟨r, hr, hid, hne⟩, q, hq, hqid, hst⟩
  exact hne (RideRequest.eq_of_id hq hr (hqid.trans hid.symm) ▸ hst)

section Calls
variable {cfg : Config} {n : Nat} {i : Invocation} {w : RideWorld}

/-- A cancellation whose batch commits tells the rider and the bidders of the request it
found, and nobody else, whatever becomes of its response; any other leaves the tables. -/
theorem cancel_sends (id requester : Id) (reason : Option String) :
    (RideRequestsService.cancel cfg id requester reason).Ends (rideSystem cfg) n i
      (fun _ w' => NoticeSent w.shared w'.shared id ∨ tablesOf w' = tablesOf w) w := by
  refine Call.Ends.perform_bind (fun _ => Or.inr rfl) ?_ fun _ _ => Or.inr rfl
  rintro found s₁ ⟨⟩
  refine Call.Ends.required_bind ?_ fun _ => Or.inr rfl
  intro x hx
  obtain ⟨-, -, hoffers, -⟩ := RideTables.findRideRequestWithOffers_some hx
  refine Call.Ends.ensure_bind (fun _ => ?_) fun _ => Or.inr rfl
  refine Call.Ends.ensure_bind (fun _ => ?_) fun _ => Or.inr rfl
  refine Call.Ends.perform_bind (fun _ => Or.inr rfl) ?_ fun _ _ => Or.inr rfl
  rintro now s₂ ⟨⟩
  refine Call.Ends.perform_bind (fun _ => Or.inr rfl) ?_ fun _ _ => Or.inr rfl
  intro updated s₃ hbatch
  refine Call.Ends.perform_bind nofun ?_ fun _ hx => nomatch hx
  rintro _ s₄ ⟨⟩
  have he := RideTables.cancelBatch_effect
    (Backend.onTables_ok (fun db => db.cancelBatch _) hbatch).1
  have hgateway : s₃.gateway = w.shared.gateway := (Backend.frame hbatch).gateway rfl
  obtain ⟨r, hr, hid, hupdated⟩ := he.result
  have hrow : updated.id = id ∧ updated.riderId = r.riderId := by
    rw [hupdated, (RideRequest.identity_eq.mp (Cancellation.onRequest_identity _ r)).1,
      (RideRequest.identity_eq.mp (Cancellation.onRequest_identity _ r)).2]
    exact ⟨hid, rfl⟩
  refine Call.Ends.ofExcept (Or.inl ⟨r, hr, hid, ?_⟩)
  show (s₃.gateway.handle cfg.haversineMeters (.rideRequestCancelled updated _)).sent = _
  rw [Gateway.sent_rideRequestCancelled, hgateway, hrow.1, hrow.2, hoffers]
  rfl

end Calls

/-- So those are told who are the rider or a bidder. -/
theorem NoticeSent.told_iff {before after : Backend} {id : Id} (h : NoticeSent before after id) :
    ∃ r ∈ before.tables.rideRequests, r.id = id ∧ ∀ userId,
      before.gateway.ToldOfCancellation after.gateway id userId ↔
        userId = r.riderId ∨ userId ∈ before.tables.bidders id := by
  obtain ⟨r, hr, hid, hsent⟩ := h
  refine ⟨r, hr, hid, fun userId => ?_⟩
  unfold Gateway.ToldOfCancellation Gateway.sentSince
  rw [hsent, List.drop_left]
  simp

/-- After any number of whole calls, and for every cancellation whose batch commits, the
users who are told of it are those whom it concerns if and only if the driver of the
request's trip, if it has one, is its rider. -/
theorem cancel_tells_affected_iff (cfg : Config) (calls : List (Invocation × List Bool))
    (id requester : Id) (reason : Option String) (refusals : List Bool) :
    let p := ridePool.serveAll (rideSystem cfg) calls
    let q := (Invocation.cancel id requester reason, refusals)
    let told := p.world.shared.gateway.ToldOfCancellation
      (p.serve (rideSystem cfg) q).world.shared.gateway id
    (tablesOf p.world).CancelledSince (tablesOf (p.serve (rideSystem cfg) q).world) id →
      ((∀ userId, told userId ↔ (tablesOf p.world).Affected id userId) ↔
        ∀ t ∈ (tablesOf p.world).trips, t.rideRequestId = id → t.driverId = t.riderId) := by
  intro p q told hcancelled
  have hcoherent : (tablesOf p.world).Coherent :=
    Pool.serveAll_invariant (K := fun w => (tablesOf w).Coherent)
      (fun w n i hw => coherent_call cfg i n hw) RideTables.Coherent.empty calls
  have hsent : NoticeSent p.world.shared (p.serve (rideSystem cfg) q).world.shared id := by
    have hends : (q.1.code cfg).Ends (rideSystem cfg) p.running.length q.1
        (fun _ w' => NoticeSent p.world.shared w'.shared id ∨ tablesOf w' = tablesOf p.world)
        p.world :=
      Call.Ends.void (K := fun w' => NoticeSent p.world.shared w'.shared id ∨
        tablesOf w' = tablesOf p.world) (cancel_sends id requester reason)
    refine (hends.eval refusals).resolve_right fun hsame => ?_
    have hsame : tablesOf (p.serve (rideSystem cfg) q).world = tablesOf p.world := hsame
    rw [hsame] at hcancelled
    exact (tablesOf p.world).not_cancelledSince_self id hcancelled
  obtain ⟨r, hr, hid, htold⟩ := hsent.told_iff
  -- A trip is of the rider of its request, and keeps every offer on it from being PENDING.
  have htrip : ∀ t ∈ (tablesOf p.world).trips, t.rideRequestId = id →
      t.riderId = r.riderId ∧ ∀ userId, userId ∉ (tablesOf p.world).bidders id := by
    intro t ht hreq
    obtain ⟨r', hr', hid', hrider, hst⟩ := hcoherent.trip_request t ht
    obtain rfl := RideRequest.eq_of_id hr' hr (hid'.trans (hreq.trans hid.symm))
    refine ⟨hrider.symm, fun userId hb => ?_⟩
    obtain ⟨o, ho, horeq, hpending, -⟩ := RideTables.mem_bidders.mp hb
    obtain ⟨r₁, hr₁, hid₁, himp⟩ := hcoherent.offer_request o ho
    obtain rfl := RideRequest.eq_of_id hr₁ hr' (hid₁.trans (horeq.trans hid.symm))
    rw [himp hpending] at hst
    cases hts : t.status <;> simp [hts, TripStatus.onRequest] at hst
  constructor
  · intro hexact t ht hreq
    obtain ⟨hrider, hnone⟩ := htrip t ht hreq
    have hdriver : told t.driverId := (hexact t.driverId).mpr (.driver ht hreq)
    rw [hrider]
    exact ((htold t.driverId).mp hdriver).resolve_right (hnone _)
  · intro hown userId
    constructor
    · intro h
      rcases (htold userId).mp h with rfl | hb
      · exact .rider hr hid
      · obtain ⟨o, ho, hreq, hst, p', hp', hpid, rfl⟩ := RideTables.mem_bidders.mp hb
        exact .bidder ho hreq hst hp' hpid
    · intro h
      apply (htold userId).mpr
      cases h with
      | rider hr' hid' =>
          exact Or.inl (congrArg RideRequest.riderId
            (RideRequest.eq_of_id hr' hr (hid'.trans hid.symm)))
      | @bidder o p' ho hreq hst hp' hpid =>
          exact Or.inr (RideTables.mem_bidders.mpr ⟨o, ho, hreq, hst, p', hp', hpid, rfl⟩)
      | driver ht hreq =>
          exact Or.inl ((hown _ ht hreq).trans (htrip _ ht hreq).1)

/-- A driver bids on a request. -/
def oneBid : List (Invocation × List Bool) :=
  [(.verifyDriver "driver" "application" "profile", []),
    (.create "rider" ⟨6, 3, 7, 4, 1500⟩ "request", []),
    (.submitOffer "driver" "request" 1500 "offer", [])]

/-- Cancelled at that point, there is no trip, and rider and bidder are told. -/
theorem cancel_tells_affected_oneBid :
    let p := ridePool.serveAll (rideSystem .default) oneBid
    let q := (Invocation.cancel "request" "rider" none, [])
    ∀ userId, p.world.shared.gateway.ToldOfCancellation
        (p.serve (rideSystem .default) q).world.shared.gateway "request" userId ↔
      (tablesOf p.world).Affected "request" userId := by
  intro p q
  have hcancelled : (tablesOf p.world).CancelledSince
      (tablesOf (p.serve (rideSystem .default) q).world) "request" := by decide +kernel
  have hnone : ∀ t ∈ (tablesOf p.world).trips, t.rideRequestId = "request" →
      t.driverId = t.riderId := by decide +kernel
  exact (cancel_tells_affected_iff .default oneBid "request" "rider" none [] hcancelled).mpr hnone

/-- The rider accepts the bid and cancels while the driver is on the way. -/
theorem not_told_driverOnTheWay :
    let p := ridePool.serveAll (rideSystem .default)
      (oneBid ++ [(.acceptOffer "rider" "offer" "trip", [])])
    let q := (Invocation.cancel "request" "rider" none, [])
    (tablesOf p.world).CancelledSince (tablesOf (p.serve (rideSystem .default) q).world)
        "request" ∧
      ¬ ∀ userId, p.world.shared.gateway.ToldOfCancellation
          (p.serve (rideSystem .default) q).world.shared.gateway "request" userId ↔
        (tablesOf p.world).Affected "request" userId := by
  intro p q
  have hcancelled : (tablesOf p.world).CancelledSince
      (tablesOf (p.serve (rideSystem .default) q).world) "request" := by decide +kernel
  have htrip : ∃ t ∈ (tablesOf p.world).trips,
      t.rideRequestId = "request" ∧ t.driverId = "driver" := by decide +kernel
  have hnot : ¬ p.world.shared.gateway.ToldOfCancellation
      (p.serve (rideSystem .default) q).world.shared.gateway "request" "driver" := by
    decide +kernel
  refine ⟨hcancelled, fun hexact => ?_⟩
  obtain ⟨t, ht, hreq, hdriver⟩ := htrip
  exact hnot ((hexact "driver").mpr (hdriver ▸ .driver ht hreq))

end Reedr
