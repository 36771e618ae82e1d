import Reedr.Ride.Evolution

/-!
# Whose position the gateway relays to whom

The gateway relays a driver's position to the rider its map holds for the
driver, without asking the database. Acceptances set the entry and completions
clear it, so while no cancellation takes the trip away under an entry, an entry
always has a live trip behind it.
-/

namespace Reedr
open Relational Interleaving

/-- A trip on which the driver's position concerns the rider. -/
def TripStatus.Live (status : TripStatus) : Prop := status = .matched ∨ status = .started

instance (status : TripStatus) : Decidable status.Live := inferInstanceAs (Decidable (_ ∨ _))

/-- The driver has a live trip with the rider. -/
def RideTables.HasLiveTrip (db : RideTables) (driverId riderId : Id) : Prop :=
  ∃ t ∈ db.trips, t.driverId = driverId ∧ t.riderId = riderId ∧ t.status.Live

instance (db : RideTables) (driverId riderId : Id) : Decidable (db.HasLiveTrip driverId riderId) :=
  inferInstanceAs (Decidable (∃ t ∈ db.trips, _ ∧ _ ∧ _))

/-- The driver and the rider of a relayed position. -/
def relayOf : Stmt → Option (Id × Id)
  | .send riderId (.driverLocationUpdate driverId _ _) => some (driverId, riderId)
  | _ => none

/-- A position is relayed on a live trip. -/
def RelaysLive (w : RideWorld) (_ : Invocation) (o : Stmt) : Prop :=
  ∀ x ∈ relayOf o, (tablesOf w).HasLiveTrip x.1 x.2

instance (w : RideWorld) (i : Invocation) (o : Stmt) : Decidable (RelaysLive w i o) :=
  inferInstanceAs (Decidable (∀ x ∈ relayOf o, (tablesOf w).HasLiveTrip x.1 x.2))

/-- The trip a cancellation takes away. -/
def cancelledTrip : Stmt → Option Id
  | .cancelBatch c => c.tripId
  | _ => none

/-- A trip is taken away that is not the one behind its driver's entry: the
entry is for another rider, or the driver has another live trip with this one. -/
def CancelsUnrelayed (w : RideWorld) (_ : Invocation) (o : Stmt) : Prop :=
  ∀ tripId ∈ cancelledTrip o, ∀ t ∈ (tablesOf w).trips, t.id = tripId →
    w.shared.gateway.activeTripRiderByDriver t.driverId = some t.riderId →
    ∃ u ∈ (tablesOf w).trips, u.id ≠ t.id ∧ u.driverId = t.driverId ∧ u.riderId = t.riderId ∧
      u.status.Live

instance (w : RideWorld) (i : Invocation) (o : Stmt) : Decidable (CancelsUnrelayed w i o) :=
  inferInstanceAs (Decidable (∀ tripId ∈ cancelledTrip o, ∀ t ∈ (tablesOf w).trips, _))

/-- Every entry of the gateway's map has a live trip behind it. -/
def Backend.EntriesLive (s : Backend) : Prop :=
  ∀ driverId riderId, s.gateway.activeTripRiderByDriver driverId = some riderId →
    s.tables.HasLiveTrip driverId riderId

/-- While cancellations leave the entries their trips, positions are relayed on
live trips only. -/
def RelaySafe (w : RideWorld) : Prop :=
  w.AllExecuted CancelsUnrelayed → w.shared.EntriesLive ∧ w.AllExecuted RelaysLive

/-- Statements that neither set or clear an entry, nor relay, nor complete a trip. -/
def Stmt.keepsRelay : Stmt → Bool
  | .completeBatch _ | .send _ _ | .emit (.offerAccepted _ _ _ _)
  | .emit (.tripCompleted _) => false
  | _ => true

namespace Backend
variable {cfg : Config} {s s' : Backend} {o : Stmt} {b : o.Res}

/-- Such statements leave the gateway's map alone. -/
theorem exec_active (ho : o.keepsRelay = true) (h : exec cfg o s = .ok (b, s')) :
    s'.gateway.activeTripRiderByDriver = s.gateway.activeTripRiderByDriver := by
  cases o with
  | emit ev =>
      cases h
      simp only [Gateway.handle_active]
      cases ev <;> first | rfl | cases ho
  | send userId m => cases ho
  | consumeLocationUpdate userId =>
      cases h
      rfl
  | _ => rw [(exec_frame h).gateway rfl]

end Backend

namespace RelaySafe
variable {cfg : Config} {w : RideWorld} {n : Nat} {i : Invocation} {o : Stmt} {b : o.Res}
  {s : Backend}

/-- They leave no entry without a live trip, if they take no entry's trip away. -/
private theorem entriesLive_exec (hs : w.shared.EntriesLive) (ho : o.keepsRelay = true)
    (hQ : CancelsUnrelayed w i o) (hx : Backend.exec cfg o w.shared = .ok (b, s)) :
    s.EntriesLive := by
  intro d r hentry
  rw [Backend.exec_active ho hx] at hentry
  have hlive := hs d r hentry
  have hwrote := Backend.exec_wrote hx
  generalize htb : s.tables = db' at hwrote
  cases hwrote with
  | nothing _ => exact hlive
  | createDriverProfile he => rwa [RideTables.HasLiveTrip, he.trips]
  | updateDriverProfile _ he => rwa [RideTables.HasLiveTrip, he.trips]
  | createRideRequest he => rwa [RideTables.HasLiveTrip, he.trips]
  | upsertOffer he => rwa [RideTables.HasLiveTrip, he.trips]
  | expireOffer he => rwa [RideTables.HasLiveTrip, he.trips]
  | expireDriverOffers he => rwa [RideTables.HasLiveTrip, he.trips]
  | acceptBatch he =>
      obtain ⟨t, ht, hrest⟩ := hlive
      exact ⟨t, he.trips.mem_old ht, hrest⟩
  | @startBatch u _ _ _ he =>
      obtain ⟨t, ht, hd, hr, hst⟩ := hlive
      have hterms := Trip.terms_eq.mp (u.startTrip_terms t)
      refine ⟨_, he.trips.mem ht, hterms.2.2.1.trans hd, hterms.2.2.2.1.trans hr, ?_⟩
      rw [u.startTrip_status]
      split
      · exact Or.inr rfl
      · exact hst
  | completeBatch he => cases ho
  | @cancelBatch c _ _ _ he =>
      -- The trip behind the entry, or the one that stays when that is taken away.
      have hstay : ∃ t ∈ (tablesOf w).trips, c.tripId ≠ some t.id ∧ t.driverId = d ∧
          t.riderId = r ∧ t.status.Live := by
        obtain ⟨t, ht, rfl, rfl, hst⟩ := hlive
        by_cases hid : c.tripId = some t.id
        · obtain ⟨u, hu, hne, hrest⟩ := hQ t.id hid t ht rfl hentry
          exact ⟨u, hu, fun hc => hne (Option.some.inj (hc.symm.trans hid)), hrest⟩
        · exact ⟨t, ht, hid, rfl, rfl, hst⟩
      obtain ⟨t, ht, hid, hrest⟩ := hstay
      have hmem := he.trips.mem ht
      rw [Cancellation.onTrip, if_neg hid] at hmem
      exact ⟨t, hmem, hrest⟩

theorem init : RelaySafe (.init Backend.empty) :=
  fun _ => ⟨fun _ _ h => (nomatch h), World.allExecuted_init _ _⟩

/-- A statement that relays nothing keeps the safety if it keeps the entries live. -/
private theorem commit (h : RelaySafe w) (ho : relayOf o = none)
    (hs : w.shared.EntriesLive → CancelsUnrelayed w i o → s.EntriesLive) :
    RelaySafe (w.commit n i o s) := by
  intro hall
  rw [World.allExecuted_commit] at hall ⊢
  obtain ⟨hentries, hrelays⟩ := h hall.1
  exact ⟨hs hentries hall.2, hrelays, by simp [RelaysLive, ho]⟩

theorem keeps (h : RelaySafe w) (hx : (rideSystem cfg).exec o w.shared = .ok (b, s))
    (ho : o.keepsRelay = true) : RelaySafe (w.commit n i o s) := by
  refine h.commit ?_ fun hentries hQ => entriesLive_exec hentries ho hQ hx
  cases o <;> first | rfl | cases ho

/-- The gateway points the driver at the rider of a live trip. -/
theorem offerAccepted (h : RelaySafe w) {r : RideRequest} {t : Trip} {offer : RideOffer}
    {ds : List Id} (ht : w.shared.tables.HasLiveTrip t.driverId t.riderId)
    (hx : (rideSystem cfg).exec (.emit (.offerAccepted r t offer ds)) w.shared = .ok ((), s)) :
    RelaySafe (w.commit n i (.emit (.offerAccepted r t offer ds)) s) := by
  cases hx
  apply h.commit rfl
  intro hentries _ d r' hentry
  simp only [Gateway.handle_active, Function.update_apply] at hentry
  split at hentry
  · next hd =>
      cases hentry
      exact hd ▸ ht
  · exact hentries d r' hentry

/-- Completing a trip and clearing its driver's entry leaves the other drivers'
trips and entries alone. -/
theorem completed (h : RelaySafe w) {u : TripUpdate} {t : Trip} {s' : Backend}
    (hx : (rideSystem cfg).exec (.completeBatch u) w.shared = .ok (t, s))
    (hx' : (rideSystem cfg).exec (.emit (.tripCompleted t)) s = .ok ((), s')) :
    RelaySafe ((w.commit n i (.completeBatch u) s).commit n i (.emit (.tripCompleted t)) s') := by
  intro hall
  simp only [World.allExecuted_commit] at hall ⊢
  obtain ⟨hentries, hrelays⟩ := h hall.1.1
  refine ⟨?_, ⟨hrelays, by simp [RelaysLive, relayOf]⟩, by simp [RelaysLive, relayOf]⟩
  obtain ⟨htables, hgateway⟩ := Backend.onTables_ok (fun db => db.completeBatch u) hx
  have heffect := RideTables.completeBatch_effect htables
  cases hx'
  intro d r hentry
  simp only [World.commit_shared, Gateway.handle_active, Function.update_apply] at hentry
  split at hentry
  · cases hentry
  · next hd =>
      rw [hgateway] at hentry
      obtain ⟨x, hxm, hxd, hxr, hst⟩ := hentries d r hentry
      have hne : x.id ≠ u.tripId := by
        intro hid
        obtain ⟨t₀, ht₀, hid₀, rfl⟩ := heffect.result
        rw [Trip.eq_of_id hxm ht₀ (hid.trans hid₀.symm)] at hxd
        exact hd (hxd.symm.trans (Trip.terms_eq.mp (u.completeTrip_terms t₀)).2.2.1.symm)
      have hmem := heffect.trips.mem hxm
      rw [TripUpdate.completeTrip, if_neg hne] at hmem
      exact ⟨x, hmem, hxd, hxr, hst⟩

/-- The rider an entry names may be sent the driver's position. -/
theorem relayed (h : RelaySafe w) {driverId riderId : Id} {lat lng : Coord}
    (hentry : w.shared.gateway.activeTripRiderByDriver driverId = some riderId)
    (hx : (rideSystem cfg).exec (.send riderId (.driverLocationUpdate driverId lat lng)) w.shared =
      .ok ((), s)) :
    RelaySafe (w.commit n i (.send riderId (.driverLocationUpdate driverId lat lng)) s) := by
  cases hx
  intro hall
  rw [World.allExecuted_commit] at hall ⊢
  obtain ⟨hentries, hrelays⟩ := h hall.1
  refine ⟨hentries, hrelays, fun x hx => ?_⟩
  cases hx
  exact hentries driverId riderId hentry

end RelaySafe

section Calls
variable (cfg : Config) (n : Nat) (i : Invocation) {w : RideWorld}

/-- A call of statements that leave the relay alone keeps it safe. -/
theorem relaySafe_of_uses {α : Type} {c : RideCall α}
    (hc : c.Uses fun o : Stmt => o.keepsRelay = true) (h : RelaySafe w) :
    c.Ends (rideSystem cfg) n i (fun _ w' => RelaySafe w') w :=
  Call.Ends.of_uses (K := RelaySafe) (fun _ _ _ _ ho hK hx => hK.keeps hx ho) hc h

private theorem findIdentityByUserId_keepsRelay (userId : Id) :
    (DriversService.findIdentityByUserId userId).Uses fun o : Stmt => o.keepsRelay = true :=
  DriversService.findIdentityByUserId_uses (fun _ => rfl) (fun _ => rfl) (fun _ _ => rfl) userId

private theorem process_keepsRelay (job : OfferExpiryJob) :
    (OfferExpiryProcessor.process job).Uses fun o : Stmt => o.keepsRelay = true :=
  OfferExpiryProcessor.process_uses (fun _ => rfl) (fun _ => rfl) (fun _ _ _ => rfl)
    (fun _ => rfl) (fun _ => rfl) job

theorem acceptOffer_relaySafe (riderId offerId uuid : Id) (h : RelaySafe w) :
    (OffersService.acceptOffer riderId offerId uuid).Ends (rideSystem cfg) n i
      (fun _ w' => RelaySafe w') w := by
  refine Call.Ends.perform_bind (fun _ => h) (fun b s hx => ?_) fun _ _ => h
  have h := h.keeps (n := n) (i := i) hx rfl
  refine Call.Ends.required_bind (fun x _ => ?_) fun _ => h
  refine Call.Ends.ensure_bind (fun _ => ?_) fun _ => h
  refine Call.Ends.ensure_bind (fun _ => ?_) fun _ => h
  refine Call.Ends.perform_bind (fun _ => h) (fun others s hx => ?_) fun _ _ => h
  have h := h.keeps (n := n) (i := i) hx rfl
  refine Call.Ends.perform_bind (fun _ => h) (fun trip s hx => ?_) fun _ _ => h
  have heffect := RideTables.acceptBatch_effect
    (Backend.onTables_ok (fun db => db.acceptBatch _) hx).1
  have h := h.keeps (n := n) (i := i) hx rfl
  -- The trip stays live while the expiry jobs are removed.
  refine Call.Ends.bind (Call.Ends.mono ?_ (Call.Ends.of_uses
    (K := fun w => RelaySafe w ∧ w.shared.tables.HasLiveTrip trip.driverId trip.riderId)
    (P := fun o => o.keepsRelay = true ∧ o.writesTables = false) ?_
    (Call.Uses.all fun _ _ => OffersService.cancelScheduledExpiry_uses
      (fun _ => ⟨rfl, rfl⟩) (fun _ => ⟨rfl, rfl⟩) _)
    ⟨h, trip, heffect.trip_eq ▸ heffect.trips.mem_new, rfl, rfl, ?_⟩))
  · rintro (e | _) w' ⟨h, hlive⟩
    · exact h
    · exact Call.Ends.perform_bind nofun (fun _ s hx => h.offerAccepted hlive hx)
        fun _ hx => nomatch hx
  · rintro w o b s ⟨ho, hw⟩ ⟨h, hlive⟩ hx
    refine ⟨h.keeps hx ho, ?_⟩
    rwa [World.commit_shared, (Backend.frame hx).tables hw]
  · rw [heffect.trip_eq]
    exact Or.inl rfl

theorem complete_relaySafe (tripId driverUserId : Id) (h : RelaySafe w) :
    (TripsService.complete cfg tripId driverUserId).Ends (rideSystem cfg) n i
      (fun _ w' => RelaySafe w') w := by
  simp only [TripsService.complete, TripsService.findOwnedByDriver, bind_assoc, pure_bind]
  refine Call.Ends.perform_bind (fun _ => h) (fun b s hx => ?_) fun _ _ => h
  have h := h.keeps (n := n) (i := i) hx rfl
  refine Call.Ends.required_bind (fun t _ => ?_) fun _ => h
  refine Call.Ends.ensure_bind (fun _ => ?_) fun _ => h
  refine Call.Ends.ensure_bind (fun _ => ?_) fun _ => h
  refine Call.Ends.perform_bind (fun _ => h) (fun now s hx => ?_) fun _ _ => h
  have h := h.keeps (n := n) (i := i) hx rfl
  refine Call.Ends.perform_bind (fun _ => h) (fun updated s hx => ?_) fun _ _ => h
  apply Call.Ends.perform_bind
  · intro hexternal
    cases hexternal
  · exact fun _ s' hx' => Call.Ends.ofExcept (h.completed hx hx')
  · intro _ hx
    cases hx

theorem onLocationUpdate_relaySafe (userId : Id) (lat lng : Coord) (h : RelaySafe w) :
    (RealtimeGateway.onLocationUpdate userId lat lng).Ends (rideSystem cfg) n i
      (fun _ w' => RelaySafe w') w := by
  refine Call.Ends.perform_bind nofun (fun allowed s hx => ?_) fun _ hx => nomatch hx
  have h := h.keeps (n := n) (i := i) hx rfl
  cases allowed with
  | false => exact h
  | true =>
      refine Call.Ends.recover (Call.Ends.bind (Call.Ends.mono ?_ (relaySafe_of_uses cfg n i
        (DriversService.updateLocation_uses findIdentityByUserId_keepsRelay rfl
          (fun _ => rfl) fun _ _ _ => rfl) h)))
      rintro (e | _) w' h
      · exact h
      · refine Call.Ends.perform_bind nofun (fun rider s hx => ?_) fun _ hx => nomatch hx
        have h := h.keeps (n := n) (i := i) hx rfl
        cases hx
        split
        · next riderId hrider =>
            exact Call.Ends.perform nofun (fun _ s hx => h.relayed hrider hx)
              fun _ hx => nomatch hx
        · exact h

/-- Each whole call, however it ends, keeps the relay safe. -/
theorem relaySafe_call (h : RelaySafe w) :
    (i.code cfg).Ends (rideSystem cfg) n i (fun _ w' => RelaySafe w') w := by
  cases i with
  | acceptOffer riderId offerId uuid =>
      exact Call.Ends.void (acceptOffer_relaySafe cfg n _ riderId offerId uuid h)
  | complete tripId driverUserId =>
      exact Call.Ends.void (complete_relaySafe cfg n _ tripId driverUserId h)
  | locationUpdate userId lat lng => exact onLocationUpdate_relaySafe cfg n _ userId lat lng h
  | create riderId dto uuid =>
      exact Call.Ends.void (relaySafe_of_uses cfg n _ (RideRequestsService.create_uses
        (fun _ => rfl) (fun _ _ => rfl) (fun _ _ => rfl) riderId dto uuid) h)
  | cancel id requester reason =>
      exact Call.Ends.void (relaySafe_of_uses cfg n _ (RideRequestsService.cancel_uses
        (fun _ => rfl) (by rfl) (fun _ => rfl) (fun _ _ => rfl) id requester reason) h)
  | submitOffer driverUserId rideRequestId offeredFare uuid =>
      exact Call.Ends.void (relaySafe_of_uses cfg n _ (OffersService.submitOffer_uses
        (fun _ => rfl) (fun _ => rfl) (fun _ _ _ _ => rfl) (fun _ => rfl) (fun _ => rfl)
        (fun _ => rfl) (fun _ _ => rfl) driverUserId rideRequestId offeredFare uuid) h)
  | start tripId driverUserId =>
      exact Call.Ends.void (relaySafe_of_uses cfg n _ (TripsService.start_uses (fun _ => rfl)
        (by rfl) (fun _ => rfl) (fun _ => rfl) tripId driverUserId) h)
  | process job => exact relaySafe_of_uses cfg n _ (process_keepsRelay job) h
  | runJob jobId =>
      exact relaySafe_of_uses cfg n _ (OfferExpiryProcessor.runJob_uses (fun _ => rfl)
        (fun _ => rfl) (fun _ => rfl) process_keepsRelay jobId) h
  | setOnlineStatus userId isOnline =>
      exact Call.Ends.void (relaySafe_of_uses cfg n _ (DriversService.setOnlineStatus_uses
        findIdentityByUserId_keepsRelay (fun _ _ => rfl) (fun _ _ _ _ => rfl) userId isOnline) h)
  | goOffline userId =>
      exact relaySafe_of_uses cfg n _ (DriversService.goOffline_uses
        findIdentityByUserId_keepsRelay (fun _ => rfl) (fun _ _ _ _ => rfl) (fun _ => rfl)
        userId) h
  | verifyDriver userId driverApplicationId uuid =>
      exact relaySafe_of_uses cfg n _ (Call.Uses.perform rfl) h
  | evictIdentity userId => exact relaySafe_of_uses cfg n _ (Call.Uses.perform rfl) h
  | elapse duration => exact relaySafe_of_uses cfg n _ (Call.Uses.perform rfl) h

end Calls

/-- In a run whose cancellations take no trip away under its driver's entry,
every position is relayed on a live trip of its driver with its recipient. -/
theorem relays_live (cfg : Config) (calls : List (Invocation × List Bool))
    (h : (ridePool.serveAll (rideSystem cfg) calls).world.AllExecuted CancelsUnrelayed) :
    (ridePool.serveAll (rideSystem cfg) calls).world.AllExecuted RelaysLive :=
  (Pool.serveAll_invariant (K := RelaySafe) (fun _ n i hw => relaySafe_call cfg n i hw)
    RelaySafe.init calls h).2

/-- A driver's offer on a rider's request is accepted. -/
def acceptedRide : List (Invocation × List Bool) :=
  [(.verifyDriver "driver" "application" "profile", []),
    (.create "rider" ⟨6, 3, 7, 4, 1500⟩ "request", []),
    (.submitOffer "driver" "request" 1500 "offer", []),
    (.acceptOffer "rider" "offer" "trip", [])]

theorem relays_live_acceptedRide :
    (ridePool.serveAll (rideSystem .default)
      (acceptedRide ++ [(.locationUpdate "driver" 6 3, [])])).world.AllExecuted RelaysLive :=
  relays_live .default _ (by decide +kernel)

/-- After the rider has cancelled, the driver's position still reaches them. -/
theorem not_relaysLive_cancelledRide :
    ¬ (ridePool.serveAll (rideSystem .default)
      (acceptedRide ++ [(.cancel "request" "rider" none, []),
        (.locationUpdate "driver" 6 3, [])])).world.AllExecuted RelaysLive := by
  decide +kernel

end Reedr
