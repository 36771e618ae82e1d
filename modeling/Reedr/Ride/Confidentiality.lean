import Reedr.Ride.Visibility

/-!
# Whom the gateway tells about a ride

A message about a ride goes to the rooms of users named in the event, not to
users found in the tables when it is sent. This module follows those names back
to the rows they were taken from: whatever runs in between, each recipient is
entitled to the message by rows that are still there.
-/

namespace Reedr
open Relational Interleaving

/-- The ride request a message tells its participants about. The announcement of a new
request and the pins of the map are none of these: they are meant for users nearby. -/
def Message.rideRequestId? : Message → Option Id
  | .rideOfferNew offer => some offer.rideRequestId
  | .rideMatched rideRequest _ => some rideRequest.id
  | .rideOfferExpired rideRequestId _ => some rideRequestId
  | .tripStarted trip => some trip.rideRequestId
  | .tripCompleted trip => some trip.rideRequestId
  | .rideRequestCancelled rideRequestId => some rideRequestId
  | .rideRequestNew _ _ _ _ _ _ | .driverLocation _ _ _ | .driverOffline _
  | .driverLocationUpdate _ _ _ => none

namespace RideTables
variable (db : RideTables)

/-- The trip is stored with these terms. -/
def HasTrip (trip : Trip) : Prop := ∃ t ∈ db.trips, t.terms = trip.terms

/-- The user drives or rides on the trip. -/
def OnTrip (trip : Trip) (userId : Id) : Prop :=
  db.HasTrip trip ∧ (trip.riderId = userId ∨ trip.driverId = userId)

/-- Why a user may be sent a message. Nothing is asked for the announcement of a new
request, which drivers nearby get before they have any part in it, or for the map. -/
def Entitled (userId : Id) : Message → Prop
  | .rideOfferNew offer =>
      ∃ r ∈ db.rideRequests, r.id = offer.rideRequestId ∧ r.riderId = userId
  | .rideMatched rideRequest trip =>
      rideRequest.id = trip.rideRequestId ∧ db.OnTrip trip userId
  | .tripStarted trip => db.OnTrip trip userId
  | .tripCompleted trip => db.OnTrip trip userId
  | .rideOfferExpired rideRequestId offerId =>
      ∃ o ∈ db.rideOffers, o.id = offerId ∧ o.rideRequestId = rideRequestId ∧
        ∃ p ∈ db.driverProfiles, p.id = o.driverId ∧ p.userId = userId
  | .rideRequestCancelled rideRequestId =>
      ∃ r ∈ db.rideRequests, r.id = rideRequestId ∧ db.Participates r userId
  | .driverLocationUpdate driverId _ _ =>
      ∃ t ∈ db.trips, t.driverId = driverId ∧ t.riderId = userId
  | .rideRequestNew _ _ _ _ _ _ | .driverLocation _ _ _ | .driverOffline _ => True

/-- The users an event names are entitled to what the gateway makes of it. -/
def Announces : DomainEvent → Prop
  | .offerSubmitted offer riderId => db.Entitled riderId (.rideOfferNew offer)
  | .offerAccepted rideRequest trip _ _ =>
      rideRequest.id = trip.rideRequestId ∧ db.HasTrip trip
  | .tripStarted trip => db.HasTrip trip
  | .tripCompleted trip => db.HasTrip trip
  | .rideRequestCancelled rideRequest affectedDriverUserIds =>
      (∃ r ∈ db.rideRequests, r.identity = rideRequest.identity) ∧
        ∀ userId ∈ affectedDriverUserIds, db.HasOffered rideRequest.id userId
  | .offerExpired rideRequestId offerId driverUserId =>
      db.Entitled driverUserId (.rideOfferExpired rideRequestId offerId)
  | .rideRequestCreated _ _ | .driverLocationUpdated _ _ _
  | .driverOnlineStatusChanged _ _ _ _ => True

/-- The same of a statement that sends. -/
def Announced : Stmt → Prop
  | .emit ev => db.Announces ev
  | .send userId m => db.Entitled userId m
  | _ => True

variable {db} {db' : RideTables}

theorem HasTrip.mono {trip : Trip} (h : db.HasTrip trip) (hg : db.Grows db') :
    db'.HasTrip trip := by
  obtain ⟨t, ht, htt⟩ := h
  obtain ⟨t', ht', htt'⟩ := hg.trips t ht
  exact ⟨t', ht', htt'.trans htt⟩

/-- What entitles a user is never taken away. -/
theorem Entitled.mono {userId : Id} {m : Message} (h : db.Entitled userId m)
    (hg : db.Grows db') : db'.Entitled userId m := by
  cases m with
  | rideOfferNew offer =>
      obtain ⟨r, hr, hid, hrider⟩ := h
      obtain ⟨r', hr', hrr⟩ := hg.requests r hr
      obtain ⟨hid', hrider'⟩ := RideRequest.identity_eq.mp hrr
      exact ⟨r', hr', hid'.trans hid, hrider'.trans hrider⟩
  | rideMatched rideRequest trip => exact ⟨h.1, h.2.1.mono hg, h.2.2⟩
  | tripStarted trip => exact ⟨h.1.mono hg, h.2⟩
  | tripCompleted trip => exact ⟨h.1.mono hg, h.2⟩
  | rideOfferExpired rideRequestId offerId =>
      obtain ⟨o, ho, hid, hreq, p, hp, hpid, huser⟩ := h
      obtain ⟨o', ho', hoo⟩ := hg.offers o ho
      obtain ⟨p', hp', hpp⟩ := hg.profiles p hp
      simp only [RideOffer.identity_eq, DriverProfile.identity_eq] at hoo hpp
      exact ⟨o', ho', hoo.1.trans hid, hoo.2.1.trans hreq, p', hp',
        by rw [hpp.1, hpid, hoo.2.2], hpp.2.1.trans huser⟩
  | rideRequestCancelled rideRequestId =>
      obtain ⟨r, hr, hid, hpart⟩ := h
      obtain ⟨r', hr', hrr⟩ := hg.requests r hr
      exact ⟨r', hr', (RideRequest.identity_eq.mp hrr).1.trans hid, hpart.mono hg hrr⟩
  | driverLocationUpdate driverId lat lng =>
      obtain ⟨t, ht, hd, hr⟩ := h
      obtain ⟨t', ht', htt⟩ := hg.trips t ht
      obtain ⟨-, -, hd', hr', -⟩ := Trip.terms_eq.mp htt
      exact ⟨t', ht', hd'.trans hd, hr'.trans hr⟩
  | rideRequestNew | driverLocation | driverOffline => trivial

end RideTables

/-- Everything sent so far went to users entitled to it, and every entry for the
relay of a driver's position is a rider the driver has had a trip with. -/
structure Backend.Discreet (s : Backend) : Prop where
  sent : ∀ x ∈ s.gateway.sent, s.tables.Entitled x.1 x.2
  entries : ∀ driverId riderId, s.gateway.activeTripRiderByDriver driverId = some riderId →
    ∃ t ∈ s.tables.trips, t.driverId = driverId ∧ t.riderId = riderId

namespace Backend.Discreet
variable {cfg : Config} {s s' : Backend}

theorem empty : Backend.empty.Discreet := by
  refine ⟨fun x hx => absurd hx List.not_mem_nil, fun d r h => ?_⟩
  cases h

/-- Statements that send nothing keep it. -/
theorem quiet (h : s.Discreet) (hg : s.tables.Grows s'.tables)
    (hsent : s'.gateway.sent = s.gateway.sent)
    (hactive : s'.gateway.activeTripRiderByDriver = s.gateway.activeTripRiderByDriver) :
    s'.Discreet := by
  constructor
  · rw [hsent]
    exact fun x hx => (h.sent x hx).mono hg
  · rw [hactive]
    intro d r hentry
    obtain ⟨t, ht, hd, hr⟩ := h.entries d r hentry
    obtain ⟨t', ht', htt⟩ := hg.trips t ht
    obtain ⟨-, -, hd', hr', -⟩ := Trip.terms_eq.mp htt
    exact ⟨t', ht', hd'.trans hd, hr'.trans hr⟩

/-- Messages to users entitled to them may be sent. -/
private theorem sending (h : s.Discreet) {g : Gateway} {l : List (Id × Message)}
    (hsent : g.sent = s.gateway.sent ++ l)
    (hl : ∀ x ∈ l, s.tables.Entitled x.1 x.2)
    (hactive : ∀ driverId riderId, g.activeTripRiderByDriver driverId = some riderId →
      s.gateway.activeTripRiderByDriver driverId = some riderId ∨
        ∃ t ∈ s.tables.trips, t.driverId = driverId ∧ t.riderId = riderId) :
    ({ s with gateway := g } : Backend).Discreet := by
  constructor
  · intro x hx
    rw [show ({ s with gateway := g } : Backend).gateway.sent = g.sent from rfl, hsent] at hx
    exact (List.mem_append.mp hx).elim (h.sent x) (hl x)
  · intro d r hentry
    exact (hactive d r hentry).elim (h.entries d r) id

/-- What the gateway makes of an event goes to users entitled to it. -/
theorem handle (h : s.Discreet) (ev : DomainEvent) (hev : s.tables.Announces ev) :
    ({ s with gateway := s.gateway.handle cfg.haversineMeters ev } : Backend).Discreet := by
  have same {g : Gateway} (hg : g.activeTripRiderByDriver = s.gateway.activeTripRiderByDriver)
      (driverId riderId : Id) (hentry : g.activeTripRiderByDriver driverId = some riderId) :
      s.gateway.activeTripRiderByDriver driverId = some riderId ∨
        ∃ t ∈ s.tables.trips, t.driverId = driverId ∧ t.riderId = riderId :=
    Or.inl (hg ▸ hentry)
  have both {trip : Trip} (ht : s.tables.HasTrip trip) {m : Message}
      (hm : ∀ userId, s.tables.OnTrip trip userId → s.tables.Entitled userId m) :
      ∀ x ∈ [(trip.riderId, m), (trip.driverId, m)], s.tables.Entitled x.1 x.2 := by
    simp only [List.mem_cons, List.not_mem_nil, or_false]
    rintro x (rfl | rfl)
    · exact hm _ ⟨ht, Or.inl rfl⟩
    · exact hm _ ⟨ht, Or.inr rfl⟩
  cases ev with
  | rideRequestCreated r users =>
      refine h.sending (by simp only [Gateway.handle, Gateway.sendAll_eq]; rfl) ?_
        (same (Gateway.handle_active _ _ _))
      intro x hx
      obtain ⟨u, -, rfl⟩ := List.mem_map.mp hx
      trivial
  | offerSubmitted offer riderId =>
      refine h.sending rfl (fun x hx => ?_) (same (Gateway.handle_active _ _ _))
      rw [List.mem_singleton.mp hx]
      exact hev
  | offerAccepted r trip o users =>
      refine h.sending (l := [(trip.riderId, .rideMatched r trip),
        (trip.driverId, .rideMatched r trip)]) ?_ (both hev.2 fun u hu => ⟨hev.1, hu⟩)
        fun d u hentry => ?_
      · simp [Gateway.handle, Gateway.send, Gateway.setActiveTripRider]
      · rw [Gateway.handle_active] at hentry
        dsimp only at hentry
        by_cases hd : d = trip.driverId
        · subst hd
          rw [Function.update_self] at hentry
          obtain ⟨t, ht, htt⟩ := hev.2
          obtain ⟨-, -, hd', hr', -⟩ := Trip.terms_eq.mp htt
          exact Or.inr ⟨t, ht, hd', hr'.trans (Option.some.inj hentry)⟩
        · rw [Function.update_of_ne hd] at hentry
          exact Or.inl hentry
  | tripStarted trip =>
      refine h.sending (l := [(trip.riderId, .tripStarted trip),
        (trip.driverId, .tripStarted trip)]) ?_ (both hev fun u hu => hu)
        (same (Gateway.handle_active _ _ _))
      simp [Gateway.handle, Gateway.send]
  | tripCompleted trip =>
      refine h.sending (l := [(trip.riderId, .tripCompleted trip),
        (trip.driverId, .tripCompleted trip)]) ?_ (both hev fun u hu => hu) fun d u hentry => ?_
      · simp [Gateway.handle, Gateway.send, Gateway.setActiveTripRider]
      · rw [Gateway.handle_active] at hentry
        dsimp only at hentry
        by_cases hd : d = trip.driverId
        · rw [hd, Function.update_self] at hentry
          cases hentry
        · rw [Function.update_of_ne hd] at hentry
          exact Or.inl hentry
  | rideRequestCancelled r users =>
      obtain ⟨⟨q, hq, hqr⟩, husers⟩ := hev
      obtain ⟨hid, hrider⟩ := RideRequest.identity_eq.mp hqr
      refine h.sending (l := (r.riderId, .rideRequestCancelled r.id) ::
        users.map fun u => (u, .rideRequestCancelled r.id)) ?_ ?_
        (same (Gateway.handle_active _ _ _))
      · simp [Gateway.handle, Gateway.send, Gateway.sendAll_eq]
      · intro x hx
        rcases List.mem_cons.mp hx with rfl | hx
        · exact ⟨q, hq, hid, Or.inl hrider⟩
        · obtain ⟨u, hu, rfl⟩ := List.mem_map.mp hx
          exact ⟨q, hq, hid, Or.inr (hid ▸ husers u hu)⟩
  | offerExpired rideRequestId offerId driverUserId =>
      refine h.sending rfl (fun x hx => ?_) (same (Gateway.handle_active _ _ _))
      rw [List.mem_singleton.mp hx]
      exact hev
  | driverLocationUpdated d lat lng =>
      refine h.sending (by simp only [Gateway.handle, Gateway.sendAll_eq]; rfl) ?_
        (same (Gateway.handle_active _ _ _))
      intro x hx
      obtain ⟨u, -, rfl⟩ := List.mem_map.mp hx
      trivial
  | driverOnlineStatusChanged d on lat lng =>
      cases on with
      | true => exact h.sending (l := []) (by simp [Gateway.handle]) (by simp) (same rfl)
      | false =>
          cases lat with
          | none => exact h.sending (l := []) (by simp [Gateway.handle]) (by simp) (same rfl)
          | some lat =>
              cases lng with
              | none =>
                  exact h.sending (l := []) (by simp [Gateway.handle]) (by simp) (same rfl)
              | some lng =>
                  refine h.sending (by simp only [Gateway.handle, Gateway.sendAll_eq]; rfl) ?_
                    (same (Gateway.handle_active _ _ _))
                  intro x hx
                  obtain ⟨u, -, rfl⟩ := List.mem_map.mp hx
                  trivial

/-- Every statement that announces to users entitled to it keeps it so. -/
theorem exec {o : Stmt} {b : o.Res} (h : s.Discreet) (ho : s.tables.Announced o)
    (hx : Backend.exec cfg o s = .ok (b, s')) : s'.Discreet := by
  have hg : s.tables.Grows s'.tables := .of_wrote (exec_wrote hx)
  cases o with
  | emit ev =>
      cases hx
      exact h.handle ev ho
  | send userId m =>
      cases hx
      refine h.sending (l := [(userId, m)]) rfl (fun x hm => ?_) fun d r hentry => Or.inl hentry
      rw [List.mem_singleton.mp hm]
      exact ho
  | consumeLocationUpdate userId =>
      cases hx
      exact h.quiet hg rfl rfl
  | _ =>
      have hframe := (exec_frame hx).gateway rfl
      exact h.quiet hg (by rw [hframe]) (by rw [hframe])

end Backend.Discreet

/-- The invariant of the announcements: recorded rows and a discreet gateway. -/
def Discreet (w : RideWorld) : Prop := Recorded w ∧ w.shared.Discreet

/-- What is known of each announcement when it is made. -/
def AnnouncedToEntitled (w : RideWorld) (_ : Invocation) (o : Stmt) : Prop :=
  (tablesOf w).Announced o

section Calls
variable {cfg : Config} {i : Invocation} {w : RideWorld}

/-- Statements that tell named users about a ride. -/
def Stmt.discloses : Stmt → Bool
  | .emit (.offerSubmitted _ _) | .emit (.offerAccepted _ _ _ _) | .emit (.tripStarted _)
  | .emit (.tripCompleted _) | .emit (.rideRequestCancelled _ _)
  | .emit (.offerExpired _ _ _) => true
  | .send _ _ => true
  | _ => false

theorem announced_of_not_discloses {o : Stmt} (ho : o.discloses = false) :
    AnnouncedToEntitled w i o := by
  cases o with
  | emit ev => cases ev <;> trivial
  | send => cases ho
  | _ => trivial

private theorem grows_exec {o : Stmt} {b : o.Res} {s : Backend}
    (hx : (rideSystem cfg).exec o w.shared = .ok (b, s)) : (tablesOf w).Grows s.tables :=
  .of_wrote (Backend.exec_wrote hx)

private theorem announced_of_uses {α : Type} {c : RideCall α}
    (h : c.Uses fun o : Stmt => o.discloses = false) :
    Justified (rideSystem cfg) Discreet Evolves AnnouncedToEntitled i c w :=
  Justified.of_uses (fun _ _ ho => announced_of_not_discloses ho) h

/-- A call that knows enough for everything it has still to announce: what it
knows is about rows, and rows stay. -/
private theorem announced_of_known {α : Type} {c : RideCall α} {K : RideTables → Prop}
    (hK : ∀ {db db' : RideTables}, K db → db.Grows db' → K db')
    (h : c.Uses fun o : Stmt => o.discloses = false ∨ ∀ db, K db → db.Announced o)
    (hw : K (tablesOf w)) :
    Justified (rideSystem cfg) Discreet Evolves AnnouncedToEntitled i c w := by
  refine Justified.of_uses_within (K := fun w => K (tablesOf w)) (fun h he => hK h he.tables)
    (fun hw ho => ?_) (fun hw _ hx => hK hw (grows_exec hx)) h hw
  exact ho.elim announced_of_not_discloses fun ho => ho _ hw

private theorem cancelScheduledExpiry_quiet {P : Stmt → Prop} (offerId : Id) :
    (OffersService.cancelScheduledExpiry offerId).Uses
      fun o : Stmt => o.discloses = false ∨ P o :=
  OffersService.cancelScheduledExpiry_uses (fun _ => Or.inl rfl) (fun _ => Or.inl rfl) offerId

theorem submitOffer_announced (driverUserId rideRequestId : Id) (offeredFare : Fare)
    (uuid : Id) : Justified (rideSystem cfg) Discreet Evolves AnnouncedToEntitled i
      (OffersService.submitOffer cfg driverUserId rideRequestId offeredFare uuid) w := by
  refine Justified.perform_bind fun w₁ _ _ => ⟨trivial, fun b s _ n₁ => ?_⟩
  apply Justified.required_bind
  intro p _
  refine Justified.perform_bind fun w₂ _ _ => ⟨trivial, ?_⟩
  rintro b s ⟨⟩ n₂
  apply Justified.required_bind
  intro r hre
  obtain ⟨hr, hrid⟩ := RideTables.findRideRequest_some hre
  apply Justified.ensure_bind
  intro _
  refine Justified.perform_bind fun w₃ _ hw₃ => ⟨trivial, fun offer s hx n₃ => ?_⟩
  have he := RideTables.upsertOffer_effect (Backend.onTables_ok
    (fun db => db.upsertOffer rideRequestId p.id offeredFare uuid) hx).1
  refine announced_of_known (K := fun db => db.Entitled r.riderId (.rideOfferNew offer))
    RideTables.Entitled.mono (Call.Uses.bind (OffersService.scheduleExpiry_uses
      (fun _ => Or.inl rfl) (fun _ => Or.inl rfl) (fun _ => Or.inl rfl) _) fun _ =>
        Call.Uses.bind (Call.Uses.perform (Or.inr fun _ h => h)) fun _ => trivial) ?_
  have hent : (tablesOf w₂).Entitled r.riderId (.rideOfferNew offer) :=
    ⟨r, hr, hrid.trans he.result_on.1.symm, rfl⟩
  have hev : Evolves w₂ w₃ := evolves_reads.through hw₃ rfl
  exact hent.mono (hev.tables.trans (grows_exec hx))

theorem acceptOffer_announced (riderId offerId uuid : Id) :
    Justified (rideSystem cfg) Discreet Evolves AnnouncedToEntitled i
      (OffersService.acceptOffer riderId offerId uuid) w := by
  refine Justified.perform_bind fun w₁ _ _ => ⟨trivial, ?_⟩
  rintro b s ⟨⟩ n₁
  apply Justified.required_bind
  intro x hx
  obtain ⟨-, -, -, -, hrid⟩ := RideTables.findOfferWithRequest_some hx
  refine Justified.ensure_bind fun _ => Justified.ensure_bind fun _ => ?_
  refine Justified.perform_bind fun w₂ _ _ => ⟨trivial, fun others s _ n₂ => ?_⟩
  refine Justified.perform_bind fun w₃ _ _ => ⟨trivial, fun trip s hs n₃ => ?_⟩
  have he := RideTables.acceptBatch_effect (Backend.onTables_ok
    (fun db => db.acceptBatch _) hs).1
  refine announced_of_known (K := fun db => db.HasTrip trip) RideTables.HasTrip.mono
    (Call.Uses.bind (Call.Uses.all fun _ _ => cancelScheduledExpiry_quiet _) fun _ =>
      Call.Uses.bind (Call.Uses.perform (Or.inr fun _ h => ⟨?_, h⟩)) fun _ => trivial) ?_
  · rw [he.trip_eq]
    exact hrid
  · exact ⟨_, he.trips.mem_new, by rw [he.trip_eq]⟩

theorem cancel_announced (id requester : Id) (reason : Option String) :
    Justified (rideSystem cfg) Discreet Evolves AnnouncedToEntitled i
      (RideRequestsService.cancel cfg id requester reason) w := by
  refine Justified.perform_bind fun w₁ _ _ => ⟨trivial, ?_⟩
  rintro b s ⟨⟩ n₁
  apply Justified.required_bind
  intro x hx
  obtain ⟨hr, hid, hoffers, -⟩ := RideTables.findRideRequestWithOffers_some hx
  refine Justified.ensure_bind fun _ => Justified.ensure_bind fun _ => ?_
  refine Justified.perform_bind fun w₂ _ hw₂ => ⟨trivial, fun now s hnow n₂ => ?_⟩
  refine Justified.perform_bind fun w₃ _ hw₃ => ⟨trivial, fun updated s hs n₃ => ?_⟩
  have he := RideTables.cancelBatch_effect (Backend.onTables_ok
    (fun db => db.cancelBatch _) hs).1
  obtain ⟨r₀, hr₀, hrid₀, hres⟩ := he.result
  have hupd : updated.identity = r₀.identity := by
    rw [hres]
    exact Cancellation.onRequest_identity _ r₀
  -- The drivers told had a pending offer when the request was read.
  have hbid : ∀ u ∈ (x.offers.filter fun o => o.offer.status = .pending).map
      (fun o => o.driverUserId), (tablesOf w₁).HasOffered id u := by
    intro u hu
    obtain ⟨y, hy, rfl⟩ := List.mem_map.mp hu
    rw [hoffers] at hy
    obtain ⟨o, ho, hjoin⟩ := List.mem_filterMap.mp (List.mem_of_mem_filter hy)
    obtain ⟨ho, hreq⟩ := Table.mem_findMany.mp ho
    obtain ⟨rfl, hp⟩ := RideTables.withDriver_some hjoin
    exact ⟨y.offer, ho, of_decide_eq_true hreq, hp⟩
  have hg : (tablesOf w₁).Grows s.tables := by
    have h₂ : Evolves w₁ w₂ := evolves_reads.through hw₂ rfl
    exact h₂.tables.trans ((grows_exec hnow).trans (hw₃.tables.trans (grows_exec hs)))
  refine announced_of_known
    (K := fun db => (tablesOf w₁).Grows db ∧ ∃ r ∈ db.rideRequests, r.identity = r₀.identity)
    (fun h hg => ⟨h.1.trans hg, ?_⟩) (Call.Uses.bind (Call.Uses.perform (Or.inr fun db h => ?_))
      fun _ => Call.Uses.ofExcept _) ⟨hg, updated, ?_, hupd⟩
  · obtain ⟨r, hr, hrr⟩ := h.2
    obtain ⟨r', hr', hrr'⟩ := hg.requests r hr
    exact ⟨r', hr', hrr'.trans hrr⟩
  · obtain ⟨hgrows, r, hr, hrr⟩ := h
    refine ⟨⟨r, hr, hrr.trans hupd.symm⟩, fun u hu => ?_⟩
    rw [(RideRequest.identity_eq.mp hupd).1, hrid₀]
    exact (hbid u hu).mono hgrows
  · have hmem := he.requests.mem hr₀
    rwa [← hres] at hmem

/-- `start` and `complete` announce the trip they have just updated. -/
private theorem updated_announced {o : Stmt} {f : Trip → DomainEvent} {t : Trip} {n : Nat}
    {s : Backend} {onTrip : Trip → Trip} {u : TripUpdate} {status : RideRequestStatus}
    (he : u.Effect onTrip status (tablesOf w) t s.tables)
    (hf : ∀ db : RideTables, db.HasTrip t → db.Announces (f t)) :
    Justified (rideSystem cfg) Discreet Evolves AnnouncedToEntitled i
      (perform (.emit (f t)) >>= fun _ => respond (TripResponseDto.from cfg.plainToInstance t))
      (w.commit n i o s) := by
  refine announced_of_known (K := fun db => db.HasTrip t) RideTables.HasTrip.mono
    (Call.Uses.bind (Call.Uses.perform (Or.inr hf)) fun _ => Call.Uses.ofExcept _) ?_
  obtain ⟨t₀, ht₀, -, rfl⟩ := he.result
  exact ⟨_, he.trips.mem ht₀, rfl⟩

theorem start_announced (tripId driverUserId : Id) :
    Justified (rideSystem cfg) Discreet Evolves AnnouncedToEntitled i
      (TripsService.start cfg tripId driverUserId) w := by
  refine Justified.bind (announced_of_uses (TripsService.findOwnedByDriver_uses (fun _ => rfl)
    tripId driverUserId)) fun t w₁ => Justified.ensure_bind fun _ => ?_
  refine Justified.perform_bind fun w₂ _ _ => ⟨trivial, fun now s _ n₂ => ?_⟩
  refine Justified.perform_bind fun w₃ _ _ => ⟨trivial, fun updated s hs n₃ => ?_⟩
  exact updated_announced (RideTables.startBatch_effect (Backend.onTables_ok
    (fun db => db.startBatch _) hs).1) fun _ h => h

theorem complete_announced (tripId driverUserId : Id) :
    Justified (rideSystem cfg) Discreet Evolves AnnouncedToEntitled i
      (TripsService.complete cfg tripId driverUserId) w := by
  refine Justified.bind (announced_of_uses (TripsService.findOwnedByDriver_uses (fun _ => rfl)
    tripId driverUserId)) fun t w₁ => Justified.ensure_bind fun _ => ?_
  refine Justified.perform_bind fun w₂ _ _ => ⟨trivial, fun now s _ n₂ => ?_⟩
  refine Justified.perform_bind fun w₃ _ _ => ⟨trivial, fun updated s hs n₃ => ?_⟩
  exact updated_announced (RideTables.completeBatch_effect (Backend.onTables_ok
    (fun db => db.completeBatch _) hs).1) fun _ h => h

theorem process_announced (job : OfferExpiryJob) :
    Justified (rideSystem cfg) Discreet Evolves AnnouncedToEntitled i
      (OfferExpiryProcessor.process job) w := by
  cases job with
  | expireOffer offerId =>
      simp only [OfferExpiryProcessor.process, OffersService.expireIfStillPending, bind_assoc]
      refine Justified.perform_bind fun w₁ _ _ => ⟨trivial, ?_⟩
      rintro b s ⟨⟩ n₁
      cases hx : (tablesOf w₁).findOffer offerId with
      | none => trivial
      | some x =>
          obtain ⟨ho, hid, hp⟩ := RideTables.findOffer_some hx
          dsimp only
          split
          · rw [bind_assoc]
            refine announced_of_known (K := fun db => db.Entitled x.driverUserId
              (.rideOfferExpired x.offer.rideRequestId offerId)) RideTables.Entitled.mono
              (Call.Uses.bind (Call.Uses.perform (Or.inl rfl)) fun _ =>
                Call.Uses.perform (Or.inr fun _ h => h)) ⟨x.offer, ho, hid, rfl, hp⟩
          · trivial
  | expireDriverPendingOffers driverProfileId =>
      exact announced_of_uses (OffersService.expireAllPendingOffersForDriver_uses (fun _ => rfl)
        (fun _ => rfl) driverProfileId)

theorem runJob_announced (jobId : String) :
    Justified (rideSystem cfg) Discreet Evolves AnnouncedToEntitled i
      (OfferExpiryProcessor.runJob jobId) w := by
  refine Justified.perform_bind fun w₁ _ _ => ⟨trivial, fun b s _ n => ?_⟩
  cases b with
  | none => trivial
  | some job =>
      refine Justified.recover (Justified.bind (process_announced job.data) fun _ _ => ?_)
        fun _ _ => ?_
      · exact announced_of_uses (Call.Uses.perform rfl)
      · exact announced_of_uses (Call.Uses.perform rfl)

private theorem identity_quiet (userId : Id) :
    (DriversService.findIdentityByUserId userId).Uses fun o : Stmt => o.discloses = false :=
  DriversService.findIdentityByUserId_uses (fun _ => rfl) (fun _ => rfl) (fun _ _ => rfl) userId

/-- The rider a position is relayed to has had a trip with the driver. -/
theorem onLocationUpdate_announced (userId : Id) (lat lng : Coord) :
    Justified (rideSystem cfg) Discreet Evolves AnnouncedToEntitled i
      (RealtimeGateway.onLocationUpdate userId lat lng) w := by
  refine Justified.perform_bind fun w₁ _ _ => ⟨trivial, fun allowed s _ n => ?_⟩
  cases allowed with
  | false => trivial
  | true =>
      refine Justified.recover (Justified.bind (announced_of_uses
        (DriversService.updateLocation_uses identity_quiet rfl (fun _ => rfl)
          fun _ _ _ => rfl)) fun _ w₂ => ?_) fun _ _ => trivial
      refine Justified.perform_bind fun w₃ hI₃ _ => ⟨trivial, ?_⟩
      rintro rider s ⟨⟩ n₃
      cases hr : w₃.shared.gateway.activeTripRiderByDriver userId with
      | none => trivial
      | some riderId =>
          exact announced_of_known (K := fun db => db.Entitled riderId
            (.driverLocationUpdate userId lat lng)) RideTables.Entitled.mono
            (Call.Uses.perform (Or.inr fun _ h => h)) (hI₃.2.entries userId riderId hr)

/-- Every call announces to users entitled to it. -/
theorem code_announced (i : Invocation) (w : RideWorld) :
    Justified (rideSystem cfg) Discreet Evolves AnnouncedToEntitled i (i.code cfg) w := by
  cases i with
  | create riderId dto uuid =>
      exact announced_of_uses (Call.Uses.void (RideRequestsService.create_uses (fun _ => rfl)
        (fun _ _ => rfl) (fun _ _ => rfl) riderId dto uuid))
  | cancel id requester reason => exact Justified.void (cancel_announced id requester reason)
  | submitOffer driverUserId rideRequestId offeredFare uuid =>
      exact Justified.void (submitOffer_announced driverUserId rideRequestId offeredFare uuid)
  | acceptOffer riderId offerId uuid =>
      exact Justified.void (acceptOffer_announced riderId offerId uuid)
  | start tripId driverUserId => exact Justified.void (start_announced tripId driverUserId)
  | complete tripId driverUserId => exact Justified.void (complete_announced tripId driverUserId)
  | process job => exact process_announced job
  | runJob jobId => exact runJob_announced jobId
  | setOnlineStatus userId isOnline =>
      exact announced_of_uses (Call.Uses.void (DriversService.setOnlineStatus_uses
        identity_quiet (fun _ _ => rfl) (fun _ _ _ _ => rfl) _ _))
  | goOffline userId =>
      exact announced_of_uses (DriversService.goOffline_uses identity_quiet
        (fun _ => rfl) (fun _ _ _ _ => rfl) (fun _ => rfl) userId)
  | locationUpdate userId lat lng => exact onLocationUpdate_announced userId lat lng
  | verifyDriver userId driverApplicationId uuid => exact announced_of_uses (Call.Uses.perform rfl)
  | evictIdentity userId => exact announced_of_uses (Call.Uses.perform rfl)
  | elapse duration => exact announced_of_uses (Call.Uses.perform rfl)

end Calls

/-- Interleaved calls keep the gateway discreet. -/
theorem discreet_discipline (cfg : Config) :
    Discipline (rideSystem cfg) Discreet Evolves
      fun w i o => Issued Recorded Evolves w i o ∧ AnnouncedToEntitled w i o where
  refl := .refl
  trans := .trans
  start i w _ := ((code_issued evolves_reads i w).strengthen fun _ hw => hw.1).and
    (code_announced i w)
  keep hI hJ hx := ⟨⟨recorded_commit hI.1 hJ.1 hx, hI.2.exec hJ.2 hx⟩, evolves_commit hx⟩

/-- A user entitled to a message about a request takes part in that request. -/
theorem Recorded.participates_of_entitled {w : RideWorld} (h : Recorded w) {userId : Id}
    {m : Message} (hm : (tablesOf w).Entitled userId m) {id : Id}
    (hid : m.rideRequestId? = some id) :
    ∃ r ∈ (tablesOf w).rideRequests, r.id = id ∧ (tablesOf w).Participates r userId := by
  have onTrip {trip : Trip} (ht : (tablesOf w).OnTrip trip userId)
      (hid : trip.rideRequestId = id) :
      ∃ r ∈ (tablesOf w).rideRequests, r.id = id ∧ (tablesOf w).Participates r userId := by
    obtain ⟨⟨t, ht, htt⟩, huser⟩ := ht
    obtain ⟨-, hreq, hdriver, hrider, -⟩ := Trip.terms_eq.mp htt
    obtain ⟨r, hr, hrid, hrr⟩ := h.trip_request t ht
    refine ⟨r, hr, hrid.trans (hreq.trans hid), ?_⟩
    rcases huser with rfl | rfl
    · exact Or.inl (hrr.trans hrider)
    · exact Or.inr (hrid ▸ hdriver ▸ h.trip_offered ht)
  cases m with
  | rideOfferNew offer =>
      cases hid
      obtain ⟨r, hr, hrid, hrider⟩ := hm
      exact ⟨r, hr, hrid, Or.inl hrider⟩
  | rideMatched rideRequest trip =>
      cases hid
      exact onTrip hm.2 hm.1.symm
  | tripStarted trip =>
      cases hid
      exact onTrip hm rfl
  | tripCompleted trip =>
      cases hid
      exact onTrip hm rfl
  | rideOfferExpired rideRequestId offerId =>
      cases hid
      obtain ⟨o, ho, -, rfl, hp⟩ := hm
      obtain ⟨r, hr, hrid⟩ := h.offer_request o ho
      exact ⟨r, hr, hrid, Or.inr ⟨o, ho, hrid.symm, hp⟩⟩
  | rideRequestCancelled rideRequestId =>
      cases hid
      exact hm
  | _ => cases hid

/-- Whatever is interleaved, what is sent of offers, trips and cancellations reaches
nobody else: each message went to a user entitled to it, so to one who may also ask for
the request it is about; and a driver's position is relayed only to riders the driver
has had a trip with. -/
theorem messages_confidential (cfg : Config) (ms : List RideMove) :
    ∀ x ∈ (ridePool.run (rideSystem cfg) ms).world.shared.gateway.sent,
      (tablesOf (ridePool.run (rideSystem cfg) ms).world).Entitled x.1 x.2 ∧
        ∀ id, x.2.rideRequestId? = some id →
          ∃ r ∈ (tablesOf (ridePool.run (rideSystem cfg) ms).world).rideRequests, r.id = id ∧
            (tablesOf (ridePool.run (rideSystem cfg) ms).world).Participates r x.1 := by
  have hI : Discreet (ridePool.run (rideSystem cfg) ms).world :=
    ((discreet_discipline cfg).sound_run (Discipline.sound_init _
      ⟨recorded_init, Backend.Discreet.empty⟩) ms).1
  intro x hx
  have hent := hI.2.sent x hx
  exact ⟨hent, fun id hid => hI.1.participates_of_entitled hent hid⟩

/-- A driver's first offer, up to the message about it. -/
def offerSeen : List RideMove :=
  [.invoke (.verifyDriver "driver" "application" "profile"), .advance 0,
    .invoke (.create "rider" ⟨6, 3, 7, 4, 1500⟩ "request"), .advance 1,
    .invoke (.submitOffer "driver" "request" 1500 "offer")] ++ List.replicate 8 (.advance 2)

theorem messages_confidential_offerSeen :
    (tablesOf (ridePool.run (rideSystem .default) offerSeen).world).Entitled "rider"
        (.rideOfferNew ⟨"offer", "request", "profile", 1500, .pending⟩) ∧
      ∀ id, some "request" = some id →
        ∃ r ∈ (tablesOf (ridePool.run (rideSystem .default) offerSeen).world).rideRequests,
          r.id = id ∧ (tablesOf (ridePool.run (rideSystem .default) offerSeen).world).Participates
            r "rider" :=
  messages_confidential .default offerSeen
    ("rider", .rideOfferNew ⟨"offer", "request", "profile", 1500, .pending⟩) (by decide +kernel)

end Reedr
