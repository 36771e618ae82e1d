import Reedr.Ride.Footprints

/-!
# What a ride service has read before it writes

Every table write is issued with values read from an earlier world. `Issued`
states, for each write, which rows that world held and which invocation the
write belongs to. It says nothing about the world the write commits in; how
much of what was read still holds there depends on the steps in between.

## Implementation notes

The relation between the two worlds is a parameter. For interleaved calls it is
what every step of every call preserves; for calls served one at a time the
tables are the same, so each guard still holds when the write is executed.
-/

namespace Reedr
open Relational Interleaving

variable (I : RideWorld → Prop) (Rely : RideWorld → RideWorld → Prop)

/-- The ride tables of a world. -/
abbrev tablesOf (w : RideWorld) : RideTables := w.shared.tables

/-- The tables of some world no later than `w` had `P`. -/
def Seen (w : RideWorld) (P : RideTables → Prop) : Prop :=
  Earlier I Rely w fun w₀ => P (tablesOf w₀)

/-- A relation between worlds that a call may rely on: it contains the steps
that only read. -/
structure Reads : Prop where
  refl : ∀ w, Rely w w
  trans : ∀ {w₁ w₂ w₃}, Rely w₁ w₂ → Rely w₂ w₃ → Rely w₁ w₃
  silent : ∀ {w n i o s}, o.writesTables = false → s.tables = tablesOf w →
    Rely w (w.commit n i o s)

section Facts

/-- The pending offer on a pending request, with its driver, that is accepted. -/
structure AcceptRead (a : Acceptance) (i : Invocation) (db : RideTables) : Prop where
  inv : i = .acceptOffer a.riderId a.offerId a.tripId
  offer : ∃ o ∈ db.rideOffers, o.id = a.offerId ∧ o.rideRequestId = a.rideRequestId ∧
    o.offeredFare = a.offeredFare ∧ o.status = .pending ∧
    ∃ p ∈ db.driverProfiles, p.id = o.driverId ∧ p.userId = a.driverUserId
  request : ∃ r ∈ db.rideRequests, r.id = a.rideRequestId ∧ r.riderId = a.riderId ∧
    r.status = .pending

/-- The cancellable request and its trip, or its lack of one. -/
structure CancelRead (c : Cancellation) (i : Invocation) (db : RideTables) : Prop where
  request : ∃ r ∈ db.rideRequests, r.id = c.rideRequestId ∧
    (r.status = .pending ∨ r.status = .matched) ∧
    ∃ requester, i = .cancel c.rideRequestId requester c.reason ∧
      (r.riderId = requester ∨
        ∃ t ∈ db.trips, t.rideRequestId = c.rideRequestId ∧ t.driverId = requester)
  noTrip : c.tripId = none → ∀ t ∈ db.trips, t.rideRequestId ≠ c.rideRequestId
  trip : ∀ id, c.tripId = some id → ∃ t ∈ db.trips, t.id = id ∧ t.rideRequestId = c.rideRequestId

/-- The driver's own trip in the status the guard asks for. -/
structure TripRead (u : TripUpdate) (status : TripStatus) (i : Id → Id → Invocation)
    (j : Invocation) (db : RideTables) : Prop where
  trip : ∃ t ∈ db.trips, t.id = u.tripId ∧ t.rideRequestId = u.rideRequestId ∧
    t.status = status ∧ j = i t.id t.driverId

end Facts

/-- What is known about a statement when it is issued. -/
def Issued (w : RideWorld) (i : Invocation) : Stmt → Prop
  | .createRideRequest r => r.status = .pending ∧ ∃ dto, i = .create r.riderId dto r.id
  | .upsertOffer rideRequestId driverId offeredFare uuid =>
      -- Two reads: the request may have been read in a later world than the profile.
      Seen I Rely w (fun db => ∃ p ∈ db.driverProfiles, p.id = driverId ∧
        i = .submitOffer p.userId rideRequestId offeredFare uuid) ∧
      Seen I Rely w fun db => ∃ r ∈ db.rideRequests, r.id = rideRequestId ∧ r.status = .pending
  | .acceptBatch a => Seen I Rely w (AcceptRead a i)
  | .cancelBatch c => Seen I Rely w (CancelRead c i)
  | .startBatch u => Seen I Rely w (TripRead u .matched .start i)
  | .completeBatch u => Seen I Rely w (TripRead u .started .complete i)
  | .expireOffer offerId =>
      Seen I Rely w fun db => ∃ o ∈ db.rideOffers, o.id = offerId ∧ o.status = .pending
  | .expireDriverOffers driverProfileId =>
      Seen I Rely w fun db => ∃ p ∈ db.driverProfiles, p.id = driverProfileId ∧ p.isOnline = false
  | _ => True

/-- The statements about which nothing has to be known. -/
def Stmt.unconditional : Stmt → Bool
  | .createRideRequest _ | .upsertOffer _ _ _ _ | .acceptBatch _ | .cancelBatch _
  | .startBatch _ | .completeBatch _ | .expireOffer _ | .expireDriverOffers _ => false
  | _ => true

variable {I Rely}

theorem Issued.of_unconditional {w : RideWorld} {i : Invocation} {o : Stmt}
    (h : o.unconditional = true) : Issued I Rely w i o := by
  cases o <;> trivial

theorem Reads.through (R : Reads Rely) {w₁ w₂ : RideWorld} {n : Nat} {i : Invocation} {o : Stmt}
    (h : Rely (w₁.commit n i o w₁.shared) w₂) (ho : o.writesTables = false) : Rely w₁ w₂ :=
  R.trans (R.silent ho rfl) h

section Lookups
variable {db : RideTables}

theorem RideTables.findDriverProfileByUser_some {userId : Id} {p : DriverProfile}
    (h : db.findDriverProfileByUser userId = some p) :
    p ∈ db.driverProfiles ∧ p.userId = userId := by
  obtain ⟨hp, hu⟩ := Table.find?_some h
  exact ⟨hp, by simpa using hu⟩

theorem RideTables.findDriverProfile_some {id : Id} {p : DriverProfile}
    (h : db.findDriverProfile id = some p) : p ∈ db.driverProfiles ∧ p.id = id := by
  obtain ⟨hp, hu⟩ := Table.find?_some h
  exact ⟨hp, by simpa using hu⟩

theorem RideTables.findDriverProfileByUser_of_mem {p : DriverProfile}
    (hp : p ∈ db.driverProfiles) : db.findDriverProfileByUser p.userId = some p :=
  Table.find?_of_unique hp (decide_eq_true rfl) fun _ hx hu =>
    DriverProfile.eq_of_userId hx hp (of_decide_eq_true hu)

theorem RideTables.findDriverProfile_of_mem {p : DriverProfile} (hp : p ∈ db.driverProfiles) :
    db.findDriverProfile p.id = some p :=
  Table.find?_of_unique hp (decide_eq_true rfl) fun _ hx hid =>
    DriverProfile.eq_of_id hx hp (of_decide_eq_true hid)

theorem RideTables.findRideRequest_some {id : Id} {r : RideRequest}
    (h : db.findRideRequest id = some r) : r ∈ db.rideRequests ∧ r.id = id := by
  obtain ⟨hr, hu⟩ := Table.find?_some h
  exact ⟨hr, by simpa using hu⟩

theorem RideTables.findTrip_some {id : Id} {t : Trip} (h : db.findTrip id = some t) :
    t ∈ db.trips ∧ t.id = id := by
  obtain ⟨ht, hu⟩ := Table.find?_some h
  exact ⟨ht, by simpa using hu⟩

theorem RideTables.withDriver_some {o : RideOffer} {x : OfferWithDriver}
    (h : db.withDriver o = some x) :
    x.offer = o ∧ ∃ p ∈ db.driverProfiles, p.id = o.driverId ∧ p.userId = x.driverUserId := by
  obtain ⟨p, hp, rfl⟩ := Option.map_eq_some_iff.mp h
  obtain ⟨hp, hid⟩ := findDriverProfile_some hp
  exact ⟨rfl, p, hp, hid, rfl⟩

theorem RideTables.findOffer_some {id : Id} {x : OfferWithDriver}
    (h : db.findOffer id = some x) :
    x.offer ∈ db.rideOffers ∧ x.offer.id = id ∧
      ∃ p ∈ db.driverProfiles, p.id = x.offer.driverId ∧ p.userId = x.driverUserId := by
  obtain ⟨o, ho, hx⟩ := Option.bind_eq_some_iff.mp h
  obtain ⟨ho, hid⟩ := Table.find?_some ho
  obtain ⟨rfl, hp⟩ := withDriver_some hx
  exact ⟨ho, by simpa using hid, hp⟩

/-- Every offer having its driver, the join loses none. -/
theorem RideTables.findOffer_none {id : Id}
    (hdriver : ∀ o ∈ db.rideOffers, ∃ p ∈ db.driverProfiles, p.id = o.driverId)
    (h : db.findOffer id = none) : ∀ o ∈ db.rideOffers, o.id ≠ id := by
  cases hf : db.rideOffers.find? (fun o => o.id = id) with
  | none =>
      intro o ho
      simpa using Table.find?_none hf o ho
  | some y =>
      obtain ⟨p, hp, hpid⟩ := hdriver y (Table.find?_some hf).1
      have hx : db.withDriver y = some ⟨y, p.userId⟩ := by
        rw [withDriver, ← hpid, findDriverProfile_of_mem hp]
        rfl
      simp [findOffer, hf, hx] at h

theorem RideTables.mem_findOtherPendingOffers {rideRequestId offerId : Id} {x : OfferWithDriver}
    (h : x ∈ db.findOtherPendingOffers rideRequestId offerId) :
    x.offer ∈ db.rideOffers ∧ x.offer.rideRequestId = rideRequestId ∧
      x.offer.status = .pending := by
  obtain ⟨o, ho, hx⟩ := List.mem_filterMap.mp h
  obtain ⟨ho, hsel⟩ := Table.mem_findMany.mp ho
  obtain ⟨rfl, -⟩ := withDriver_some hx
  obtain ⟨hr, hst, -⟩ := of_decide_eq_true hsel
  exact ⟨ho, hr, hst⟩

theorem RideTables.findOfferWithRequest_some {id : Id} {x : OfferWithRequest}
    (h : db.findOfferWithRequest id = some x) :
    x.offer ∈ db.rideOffers ∧ x.offer.id = id ∧
      (∃ p ∈ db.driverProfiles, p.id = x.offer.driverId ∧ p.userId = x.driverUserId) ∧
      x.rideRequest ∈ db.rideRequests ∧ x.rideRequest.id = x.offer.rideRequestId := by
  obtain ⟨o, ho, hx⟩ := Option.bind_eq_some_iff.mp h
  obtain ⟨r, hr, rfl⟩ := Option.map_eq_some_iff.mp hx
  obtain ⟨ho, hid, hp⟩ := findOffer_some ho
  obtain ⟨hr, hrid⟩ := findRideRequest_some hr
  exact ⟨ho, hid, hp, hr, hrid⟩

theorem RideTables.findRideRequestWithOffers_some {id : Id} {x : RideRequestWithOffers}
    (h : db.findRideRequestWithOffers id = some x) :
    x.rideRequest ∈ db.rideRequests ∧ x.rideRequest.id = id ∧
      x.offers = (db.rideOffers.findMany fun o => o.rideRequestId = id).filterMap db.withDriver ∧
      x.trip = db.trips.find? fun t => t.rideRequestId = id := by
  obtain ⟨r, hr, rfl⟩ := Option.map_eq_some_iff.mp h
  obtain ⟨hr, hrid⟩ := findRideRequest_some hr
  exact ⟨hr, hrid, rfl, rfl⟩

end Lookups

section Calls
variable {cfg : Config} (R : Reads Rely) {i : Invocation} {w : RideWorld}

/-- Calls of unconditional statements are issued with their facts in any world. -/
theorem issued_of_uses {α : Type} {c : RideCall α}
    (h : c.Uses fun o : Stmt => o.unconditional = true) :
    Justified (rideSystem cfg) I Rely (Issued I Rely) i c w :=
  Justified.of_uses (fun _ _ ho => Issued.of_unconditional ho) h

private theorem cancelScheduledExpiry_unconditional (offerId : Id) :
    (OffersService.cancelScheduledExpiry offerId).Uses fun o : Stmt => o.unconditional = true :=
  OffersService.cancelScheduledExpiry_uses (fun _ => rfl) (fun _ => rfl) offerId

private theorem findIdentityByUserId_unconditional (userId : Id) :
    (DriversService.findIdentityByUserId userId).Uses fun o : Stmt => o.unconditional = true :=
  DriversService.findIdentityByUserId_uses (fun _ => rfl) (fun _ => rfl) (fun _ _ => rfl) userId

/-- What a call knows after it has read the driver's own trip. -/
private theorem findOwnedByDriver_issued {α : Type} {tripId driverUserId : Id}
    {f : Trip → RideCall α}
    (h : ∀ w₁ t n, I w₁ → t ∈ (tablesOf w₁).trips → t.id = tripId → t.driverId = driverUserId →
      Justified (rideSystem cfg) I Rely (Issued I Rely) i (f t)
        (w₁.commit n i (.findTrip tripId) w₁.shared)) :
    Justified (rideSystem cfg) I Rely (Issued I Rely) i
      (TripsService.findOwnedByDriver tripId driverUserId >>= f) w := by
  simp only [TripsService.findOwnedByDriver, bind_assoc]
  refine Justified.perform_bind fun w₁ hI₁ _ => ⟨trivial, ?_⟩
  rintro b s ⟨⟩ n
  apply Justified.required_bind
  intro t hte
  obtain ⟨ht, hid⟩ := RideTables.findTrip_some hte
  exact Justified.ensure_bind fun hd => h w₁ t n hI₁ ht hid hd

include R

theorem submitOffer_issued (driverUserId rideRequestId : Id) (offeredFare : Fare) (uuid : Id) :
    Justified (rideSystem cfg) I Rely (Issued I Rely)
      (.submitOffer driverUserId rideRequestId offeredFare uuid)
      (OffersService.submitOffer cfg driverUserId rideRequestId offeredFare uuid) w := by
  refine Justified.perform_bind fun w₁ hI₁ _ => ⟨trivial, ?_⟩
  rintro b s ⟨⟩ n₁
  apply Justified.required_bind
  intro p hpe
  obtain ⟨hp, rfl⟩ := RideTables.findDriverProfileByUser_some hpe
  refine Justified.perform_bind fun w₂ hI₂ hw₂ => ⟨trivial, ?_⟩
  rintro b s ⟨⟩ n₂
  apply Justified.required_bind
  intro r hre
  obtain ⟨hr, hrid⟩ := RideTables.findRideRequest_some hre
  apply Justified.ensure_bind
  intro hst
  refine Justified.perform_bind fun w₃ _ hw₃ => ⟨?_, fun offer s _ n₃ => ?_⟩
  · have h₂₃ : Rely w₂ w₃ := R.through hw₃ rfl
    exact ⟨⟨w₁, hI₁, R.trans (R.through hw₂ rfl) h₂₃, p, hp, rfl, rfl⟩,
      w₂, hI₂, h₂₃, r, hr, hrid, hst⟩
  · exact issued_of_uses (Call.Uses.bind (OffersService.scheduleExpiry_uses (fun _ => rfl)
      (fun _ => rfl) (fun _ => rfl) _) fun _ =>
        Call.Uses.bind (Call.Uses.perform rfl) fun _ => trivial)

theorem acceptOffer_issued (riderId offerId uuid : Id) :
    Justified (rideSystem cfg) I Rely (Issued I Rely) (.acceptOffer riderId offerId uuid)
      (OffersService.acceptOffer riderId offerId uuid) w := by
  refine Justified.perform_bind fun w₁ hI₁ _ => ⟨trivial, ?_⟩
  rintro b s ⟨⟩ n₁
  apply Justified.required_bind
  intro x hx
  obtain ⟨ho, rfl, hp, hr, hrid⟩ := RideTables.findOfferWithRequest_some hx
  refine Justified.ensure_bind fun hown => Justified.ensure_bind fun hst => ?_
  refine Justified.perform_bind fun w₂ _ hw₂ => ⟨trivial, ?_⟩
  rintro others s ⟨⟩ n₂
  refine Justified.perform_bind fun w₃ _ hw₃ => ⟨?_, fun trip s _ n₃ => ?_⟩
  · exact ⟨w₁, hI₁, R.trans (R.through hw₂ rfl) (R.through hw₃ rfl), rfl,
      ⟨x.offer, ho, rfl, rfl, rfl, hst.2, hp⟩, x.rideRequest, hr, hrid, hown, hst.1⟩
  · refine issued_of_uses (Call.Uses.bind (Call.Uses.all fun _ _ => ?_) fun _ =>
      Call.Uses.bind (Call.Uses.perform rfl) fun _ => trivial)
    exact cancelScheduledExpiry_unconditional _

theorem cancel_issued (id requester : Id) (reason : Option String) :
    Justified (rideSystem cfg) I Rely (Issued I Rely) (.cancel id requester reason)
      (RideRequestsService.cancel cfg id requester reason) w := by
  refine Justified.perform_bind fun w₁ hI₁ _ => ⟨trivial, ?_⟩
  rintro b s ⟨⟩ n₁
  apply Justified.required_bind
  intro x hx
  obtain ⟨hr, rfl, -, htrip⟩ := RideTables.findRideRequestWithOffers_some hx
  refine Justified.ensure_bind fun hcan => Justified.ensure_bind fun hst => ?_
  refine Justified.perform_bind fun w₂ _ hw₂ => ⟨trivial, ?_⟩
  rintro now s ⟨⟩ n₂
  refine Justified.perform_bind fun w₃ _ hw₃ => ⟨?_, fun updated s _ n₃ => ?_⟩
  · refine ⟨w₁, hI₁, R.trans (R.through hw₂ rfl) (R.through hw₃ rfl), ?_, ?_, ?_⟩
    · refine ⟨x.rideRequest, hr, rfl, hst, requester, rfl, hcan.imp id fun ht => ?_⟩
      obtain ⟨t, ht, hd⟩ := Option.map_eq_some_iff.mp ht
      rw [htrip] at ht
      obtain ⟨ht, hreq⟩ := Table.find?_some ht
      exact ⟨t, ht, by simpa using hreq, hd⟩
    · intro hnone t ht
      rw [Option.map_eq_none_iff, htrip] at hnone
      simpa using Table.find?_none hnone t ht
    · intro tripId hsome
      obtain ⟨t, ht, hid⟩ := Option.map_eq_some_iff.mp hsome
      rw [htrip] at ht
      obtain ⟨ht, hreq⟩ := Table.find?_some ht
      exact ⟨t, ht, hid, by simpa using hreq⟩
  · exact issued_of_uses (Call.Uses.bind (Call.Uses.perform rfl) fun _ =>
      Call.Uses.ofExcept _)

theorem start_issued (tripId driverUserId : Id) :
    Justified (rideSystem cfg) I Rely (Issued I Rely) (.start tripId driverUserId)
      (TripsService.start cfg tripId driverUserId) w := by
  apply findOwnedByDriver_issued
  intro w₁ t n₁ hI₁ ht hid hd
  apply Justified.ensure_bind
  intro hst
  refine Justified.perform_bind fun w₂ _ hw₂ => ⟨trivial, ?_⟩
  rintro now s ⟨⟩ n₂
  refine Justified.perform_bind fun w₃ _ hw₃ => ⟨?_, fun updated s _ n₃ => ?_⟩
  · exact ⟨w₁, hI₁, R.trans (R.through hw₂ rfl) (R.through hw₃ rfl),
      t, ht, hid, rfl, hst, by rw [hid, hd]⟩
  · exact issued_of_uses (Call.Uses.bind (Call.Uses.perform rfl) fun _ =>
      Call.Uses.ofExcept _)

theorem complete_issued (tripId driverUserId : Id) :
    Justified (rideSystem cfg) I Rely (Issued I Rely) (.complete tripId driverUserId)
      (TripsService.complete cfg tripId driverUserId) w := by
  apply findOwnedByDriver_issued
  intro w₁ t n₁ hI₁ ht hid hd
  apply Justified.ensure_bind
  intro hst
  refine Justified.perform_bind fun w₂ _ hw₂ => ⟨trivial, ?_⟩
  rintro now s ⟨⟩ n₂
  refine Justified.perform_bind fun w₃ _ hw₃ => ⟨?_, fun updated s _ n₃ => ?_⟩
  · exact ⟨w₁, hI₁, R.trans (R.through hw₂ rfl) (R.through hw₃ rfl),
      t, ht, hid, rfl, hst, by rw [hid, hd]⟩
  · exact issued_of_uses (Call.Uses.bind (Call.Uses.perform rfl) fun _ =>
      Call.Uses.ofExcept _)

theorem expireIfStillPending_issued (offerId : Id) :
    Justified (rideSystem cfg) I Rely (Issued I Rely) i
      (OffersService.expireIfStillPending offerId) w := by
  refine Justified.perform_bind fun w₁ hI₁ _ => ⟨trivial, ?_⟩
  rintro b s ⟨⟩ n₁
  cases hx : (tablesOf w₁).findOffer offerId with
  | none => trivial
  | some x =>
      obtain ⟨ho, hid, -⟩ := RideTables.findOffer_some hx
      dsimp only
      split
      · next hst =>
          exact Justified.perform_bind fun w₂ _ hw₂ =>
            ⟨⟨w₁, hI₁, R.through hw₂ rfl, x.offer, ho, hid, hst⟩, fun _ _ _ _ => trivial⟩
      · trivial

theorem expireAllPendingOffersForDriver_issued (driverProfileId : Id) :
    Justified (rideSystem cfg) I Rely (Issued I Rely) i
      (OffersService.expireAllPendingOffersForDriver driverProfileId) w := by
  refine Justified.perform_bind fun w₁ hI₁ _ => ⟨trivial, ?_⟩
  rintro b s ⟨⟩ n₁
  cases hx : (tablesOf w₁).findDriverProfile driverProfileId with
  | none => trivial
  | some p =>
      obtain ⟨hp, hid⟩ := RideTables.findDriverProfile_some hx
      cases hon : p.isOnline with
      | true => simp [hon, Justified, pure]
      | false =>
          simp only [hon, Bool.false_eq_true, if_false]
          intro w₂ _ hw₂
          exact ⟨⟨w₁, hI₁, R.through hw₂ rfl, p, hp, hid, hon⟩, fun _ _ _ _ => trivial,
            fun _ => trivial⟩

theorem process_issued (job : OfferExpiryJob) :
    Justified (rideSystem cfg) I Rely (Issued I Rely) i (OfferExpiryProcessor.process job) w := by
  cases job with
  | expireOffer offerId =>
      apply Justified.bind (expireIfStillPending_issued R offerId)
      intro result w'
      cases result with
      | none => trivial
      | some result => exact issued_of_uses (Call.Uses.perform rfl)
  | expireDriverPendingOffers driverProfileId =>
      exact expireAllPendingOffersForDriver_issued R driverProfileId

theorem runJob_issued (jobId : String) :
    Justified (rideSystem cfg) I Rely (Issued I Rely) i (OfferExpiryProcessor.runJob jobId) w := by
  refine Justified.perform_bind fun w₁ _ _ => ⟨trivial, fun b s _ n => ?_⟩
  cases b with
  | none => trivial
  | some job =>
      refine Justified.recover (Justified.bind (process_issued R job.data) fun _ _ => ?_)
        fun _ _ => ?_
      · exact issued_of_uses (Call.Uses.perform rfl)
      · exact issued_of_uses (Call.Uses.perform rfl)

/-- Every call of the ride services issues its statements with their facts. -/
theorem code_issued (i : Invocation) (w : RideWorld) :
    Justified (rideSystem cfg) I Rely (Issued I Rely) i (i.code cfg) w := by
  cases i with
  | create riderId dto uuid =>
      refine Justified.void (Justified.perform_bind fun w₁ _ _ =>
        ⟨⟨rfl, dto, rfl⟩, fun _ _ _ _ => issued_of_uses ?_⟩)
      exact Call.Uses.bind (Call.Uses.perform rfl) fun _ =>
        Call.Uses.bind (Call.Uses.perform rfl) fun _ => Call.Uses.ofExcept _
  | cancel id requester reason => exact Justified.void (cancel_issued R id requester reason)
  | submitOffer driverUserId rideRequestId offeredFare uuid =>
      exact Justified.void (submitOffer_issued R driverUserId rideRequestId offeredFare uuid)
  | acceptOffer riderId offerId uuid =>
      exact Justified.void (acceptOffer_issued R riderId offerId uuid)
  | start tripId driverUserId => exact Justified.void (start_issued R tripId driverUserId)
  | complete tripId driverUserId => exact Justified.void (complete_issued R tripId driverUserId)
  | process job => exact process_issued R job
  | runJob jobId => exact runJob_issued R jobId
  | setOnlineStatus userId isOnline =>
      exact issued_of_uses (Call.Uses.void (DriversService.setOnlineStatus_uses
        findIdentityByUserId_unconditional (fun _ _ => rfl) (fun _ _ _ _ => rfl) _ _))
  | goOffline userId =>
      exact issued_of_uses (DriversService.goOffline_uses findIdentityByUserId_unconditional
        (fun _ => rfl) (fun _ _ _ _ => rfl) (fun _ => rfl) userId)
  | locationUpdate userId lat lng =>
      exact issued_of_uses (RealtimeGateway.onLocationUpdate_uses (fun _ => rfl)
        (DriversService.updateLocation_uses findIdentityByUserId_unconditional rfl
          (fun _ => rfl) fun _ _ _ => rfl) (fun _ => rfl) fun _ _ => rfl)
  | verifyDriver userId driverApplicationId uuid => exact issued_of_uses (Call.Uses.perform rfl)
  | evictIdentity userId => exact issued_of_uses (Call.Uses.perform rfl)
  | elapse duration => exact issued_of_uses (Call.Uses.perform rfl)

end Calls

end Reedr
