import Reedr.App.Effects
import Reedr.Onboarding.Footprints
import Reedr.Ride.Evolution

/-!
# Acting as a driver

A driver-side action writes the database for a user who has a profile. Over HTTP
the guard has just read that the user is in driver mode as well; the two message
handlers that act for a driver do not ask.
-/

namespace Reedr
open Relational Interleaving

namespace AppState
variable (s : AppState) (userId : Id)

def InDriverMode : Prop :=
  ∃ u ∈ s.registry.users, u.id = userId ∧ u.activeProfile = .driver

def HasProfile : Prop := ∃ p ∈ s.tables.driverProfiles, p.userId = userId

instance : Decidable (s.InDriverMode userId) :=
  inferInstanceAs (Decidable (∃ u ∈ s.registry.users, _))

instance : Decidable (s.HasProfile userId) :=
  inferInstanceAs (Decidable (∃ p ∈ s.tables.driverProfiles, _))

end AppState

/-- Placing or re-pricing an offer, moving a driver, going online, and starting or
completing a trip. -/
def Stmt.drives : Stmt → Bool
  | .upsertOffer _ _ _ _ | .setLocation _ _ _ _ | .setOnline _ true | .startBatch _
  | .completeBatch _ => true
  | _ => false

def AppStmt.drives : AppStmt → Bool
  | .ride o => o.drives
  | _ => false

namespace AppInvocation

/-- The user whose token a request or whose socket a message came with. -/
def actor : AppInvocation → Option Id
  | .updateStatus userId _ | .updateLocation userId _ _ | .startTrip _ userId
  | .completeTrip _ userId | .offerSubmit userId _ _ _ | .locationUpdate userId _ _ => some userId
  | _ => none

/-- The messages that act for a driver. -/
def drivesBySocket : AppInvocation → Bool
  | .offerSubmit _ _ _ _ | .locationUpdate _ _ _ => true
  | _ => false

end AppInvocation

/-- A driver-side action is done by a user who is in driver mode and has a profile. -/
def ActsAsDriver (w : AppWorld) (i : AppInvocation) (o : AppStmt) : Prop :=
  o.drives = true → ∃ u ∈ i.actor, w.shared.InDriverMode u ∧ w.shared.HasProfile u

/-- The same of the mode alone, and of what the messages do. -/
def SendsAsDriver (w : AppWorld) (i : AppInvocation) (o : AppStmt) : Prop :=
  o.drives = true → i.drivesBySocket = true → ∃ u ∈ i.actor, w.shared.InDriverMode u

instance (w : AppWorld) (i : AppInvocation) (o : AppStmt) : Decidable (ActsAsDriver w i o) :=
  inferInstanceAs (Decidable (_ → ∃ u ∈ i.actor, _))

instance (w : AppWorld) (i : AppInvocation) (o : AppStmt) : Decidable (SendsAsDriver w i o) :=
  inferInstanceAs (Decidable (_ → _ → ∃ u ∈ i.actor, _))

namespace AppState
variable {cfg : Config} {s s' : AppState} {userId : Id}

/-- Only a switch changes the mode a user is in. -/
theorem exec_ride_users {o : Stmt} {b : o.Res} (h : exec cfg (.ride o) s = .ok (b, s')) :
    s'.registry.users = s.registry.users := by
  cases Registry.exec_wrote (exec_onboarding h) with
  | nothing ho => exact nomatch ho
  | ride hu ha hd hr => exact hu

/-- Profiles stay with their users. -/
theorem HasProfile.exec_ride {o : Stmt} {b : o.Res} (hp : s.HasProfile userId)
    (h : exec cfg (.ride o) s = .ok (b, s')) : s'.HasProfile userId := by
  obtain ⟨p, hpm, rfl⟩ := hp
  have hgrows := RideTables.Grows.of_wrote (Backend.exec_wrote (AppState.exec_ride h))
  obtain ⟨p', hpm', hpp⟩ := hgrows.profiles p hpm
  exact ⟨p', hpm', (DriverProfile.identity_eq.mp hpp).2.1⟩

theorem InDriverMode.exec_ride {o : Stmt} {b : o.Res} (hm : s.InDriverMode userId)
    (h : exec cfg (.ride o) s = .ok (b, s')) : s'.InDriverMode userId := by
  rw [InDriverMode, exec_ride_users h]
  exact hm

end AppState

/-- What is known about a driver-side statement when it is issued. A location is
only written to a row that is there, so nothing need be known for that. -/
def DriverKnown (w : AppWorld) (i : AppInvocation) (o : AppStmt) : Prop :=
  o.drives = true → ∃ u ∈ i.actor,
    (i.drivesBySocket = true ∨ w.shared.InDriverMode u ∧ w.shared.HasProfile u) ∧
      (w.shared.HasProfile u ∨ ∃ lat lng now, o = .ride (.setLocation u lat lng now))

section Calls
variable {cfg : Config} {i : AppInvocation} {w : AppWorld} {userId : Id}

/-- Behind the guard the user is in driver mode, and whatever the route does, they
stay in it and keep their profile. -/
theorem guarded_driverKnown {α : Type} {c : RideCall α} (hi : userId ∈ i.actor) :
    Justified (appSystem cfg) (fun _ => True) Eq DriverKnown i (guarded userId .driver c) w := by
  simp only [guarded, ActiveProfileGuard.canActivate, bind_assoc]
  apply Justified.perform_bind
  intro w₁ _ _
  refine ⟨fun hdrives => absurd hdrives (by simp [AppStmt.drives]), ?_⟩
  rintro record s ⟨⟩ n
  apply Justified.ensure_bind
  intro hmode
  apply Justified.ensure_bind
  intro hprofile
  obtain ⟨u, hu, hum⟩ : ∃ u, w₁.shared.registry.users.find? (fun u => u.id = userId) = some u ∧
      u.activeProfile = .driver := by
    simpa using hmode
  obtain ⟨p, hp⟩ : ∃ p, w₁.shared.tables.findDriverProfileByUser userId = some p := by
    simpa [hu, Option.ne_none_iff_exists'] using hprofile
  apply Justified.of_uses_within (P := fun o : AppStmt => ∃ r, o = .ride r)
    (K := fun w => w.shared.InDriverMode userId ∧ w.shared.HasProfile userId)
  · rintro w w' hK rfl
    exact hK
  · intro w o hK _ _
    exact ⟨userId, hi, Or.inr hK, Or.inl hK.2⟩
  · rintro w n o b s hK ⟨r, rfl⟩ hx
    exact ⟨hK.1.exec_ride hx, hK.2.exec_ride hx⟩
  · exact Call.Uses.embed (fun o _ => ⟨o, rfl⟩) (Call.Uses.any c)
  · constructor
    · exact ⟨u, (Table.find?_some hu).1, of_decide_eq_true (Table.find?_some hu).2, hum⟩
    · exact ⟨p, RideTables.findDriverProfileByUser_some hp⟩

/-- The user has a profile. -/
private def Owns (userId : Id) (v : RideWorld) : Prop :=
  ∃ p ∈ v.shared.tables.driverProfiles, p.userId = userId

/-- An offer is placed for a user whose profile was found. -/
theorem submitOffer_owned (userId rideRequestId : Id) (offeredFare : Fare) (uuid : Id)
    (j : Invocation) (v : RideWorld) :
    Justified (rideSystem cfg) (fun _ => True) (fun v v' => v.shared = v'.shared)
      (fun v _ o => Stmt.drives o = true → Owns userId v) j
      (OffersService.submitOffer cfg userId rideRequestId offeredFare uuid) v := by
  apply Justified.perform_bind
  intro v₁ _ _
  refine ⟨nofun, ?_⟩
  rintro profile s ⟨⟩ n
  apply Justified.required_bind
  intro p hp
  apply Justified.of_uses_within (P := fun _ => True) (K := Owns userId)
  · intro v v' hv hvv
    rwa [Owns, ← show v.shared = v'.shared from hvv]
  · exact fun hv _ _ => hv
  · rintro v n o b s ⟨p, hp, hpu⟩ _ hx
    have hgrows := RideTables.Grows.of_wrote (Backend.exec_wrote hx)
    obtain ⟨p', hp', hpp⟩ := hgrows.profiles p hp
    exact ⟨p', hp', (DriverProfile.identity_eq.mp hpp).2.1.trans hpu⟩
  · exact Call.Uses.any _
  · exact ⟨p, RideTables.findDriverProfileByUser_some hp⟩

theorem submitOffer_driverKnown {rideRequestId : Id} {offeredFare : Fare} {uuid : Id}
    (hi : userId ∈ i.actor) (hsocket : i.drivesBySocket = true) :
    Justified (appSystem cfg) (fun _ => True) Eq DriverKnown i
      ((OffersService.submitOffer cfg userId rideRequestId offeredFare uuid).void.embed
        rideInApp) w := by
  refine Justified.embed (rideInApp_lifts cfg) (fun _ _ => trivial) ?_ ?_
    (Justified.void (submitOffer_owned userId rideRequestId offeredFare uuid
      (.evictIdentity userId) (.init w.shared.registry.ride))) rfl
  · rintro v w w' hv rfl
    exact hv
  · intro w o hJ ho
    exact ⟨userId, hi, Or.inl hsocket, Or.inl (hJ ho)⟩

private theorem driverKnown_of_uses {α : Type} {c : AppCall α}
    (h : c.Uses fun o : AppStmt => o.drives = false) :
    Justified (appSystem cfg) (fun _ => True) Eq DriverKnown i c w :=
  Justified.of_uses (fun _ _ ho hd => nomatch ho.symm.trans hd) h

private theorem driverKnown_of_ride {α : Type} {c : RideCall α}
    (h : c.Uses fun o : Stmt => o.drives = false) :
    Justified (appSystem cfg) (fun _ => True) Eq DriverKnown i (c.embed rideInApp) w :=
  driverKnown_of_uses (Call.Uses.embed (fun _ ho => ho) h)

theorem goOffline_drives (cfg : Config) (userId : Id) :
    (DriversService.goOffline cfg userId).Uses fun o : Stmt => o.drives = false :=
  DriversService.goOffline_uses (DriversService.findIdentityByUserId_uses (fun _ => rfl)
    (fun _ => rfl) fun _ _ => rfl) (fun _ => rfl) (fun _ _ _ _ => rfl) (fun _ => rfl) userId

theorem onboarding_drives (i : OnboardingInvocation) :
    (i.code cfg).Uses fun o : OnboardingStmt => (AppStmt.onboarding o).drives = false := by
  by_cases hi : ∃ userId profile, i = .setActiveProfile userId profile
  · obtain ⟨userId, profile, rfl⟩ := hi
    exact Call.Uses.void (setActiveProfile_uses
      (P := fun o => (AppStmt.onboarding o).drives = false) (fun _ => rfl) (fun _ _ => rfl)
      (goOffline_drives cfg) userId profile)
  · apply (i.code_applies fun userId profile h => hi ⟨userId, profile, h⟩).mono
    intro o ho
    cases o with
    | ride o =>
        cases o with
        | now => rfl
        | elapse duration => rfl
        | _ => exact nomatch ho
    | _ => rfl

theorem rateTrip_uses {P : RatingStmt → Prop}
    (hfind : ∀ id, P (.onboarding (.ride (.findTrip id)))) (hcreate : ∀ r, P (.createRating r))
    (haggregate : ∀ userId, P (.aggregateRatings userId))
    (hupdate : ∀ userId rating, P (.updateUserRating userId rating))
    (tripId fromUserId : Id) (dto : RateTripDto) (uuid : Id) :
    (RatingsService.rateTrip tripId fromUserId dto uuid).Uses P := by
  apply Call.Uses.bind
  · exact Call.Uses.perform (hfind _)
  intro trip
  apply Call.Uses.bind (Call.Uses.required _ _)
  intro trip
  apply Call.Uses.bind (Call.Uses.ensure _ _)
  intro _
  apply Call.Uses.bind (Call.Uses.required _ _)
  intro toUserId
  apply Call.Uses.recover
  · apply Call.Uses.bind (Call.Uses.perform (hcreate _))
    intro rating
    refine Call.Uses.bind ?_ fun _ => trivial
    exact Call.Uses.bind (Call.Uses.perform (haggregate _)) fun _ => Call.Uses.perform (hupdate _ _)
  · intro e
    split <;> trivial

/-- The only driver-side statement of a location message is the update itself. -/
theorem onLocationUpdate_drives (userId : Id) (lat lng : Coord) :
    (RealtimeGateway.onLocationUpdate userId lat lng).Uses fun o : Stmt =>
      o.drives = true → ∃ lat lng now, o = .setLocation userId lat lng now :=
  RealtimeGateway.onLocationUpdate_uses (fun _ => nofun)
    (DriversService.updateLocation_uses
      (DriversService.findIdentityByUserId_uses (fun _ => nofun) (fun _ => nofun) fun _ _ => nofun)
      nofun (fun now _ => ⟨lat, lng, now, rfl⟩) fun _ _ _ => nofun)
    (fun _ => nofun) fun _ _ => nofun

theorem code_driverKnown (i : AppInvocation) (w : AppWorld) :
    Justified (appSystem cfg) (fun _ => True) Eq DriverKnown i (i.code cfg) w := by
  cases i with
  | onboarding i =>
      exact driverKnown_of_uses (Call.Uses.embed (fun _ ho => ho) (onboarding_drives i))
  | updateStatus userId isOnline => exact Justified.void (guarded_driverKnown rfl)
  | updateLocation userId lat lng => exact Justified.void (guarded_driverKnown rfl)
  | createRideRequest riderId dto uuid =>
      apply Justified.void
      apply Justified.bind
      · apply driverKnown_of_uses
        refine Call.Uses.bind (Call.Uses.perform rfl) fun record => ?_
        exact Call.Uses.bind (Call.Uses.ensure _ _) fun _ => Call.Uses.ensure _ _
      · intro _ w'
        exact driverKnown_of_ride (RideRequestsService.create_uses (fun _ => rfl)
          (fun _ _ => rfl) (fun _ _ => rfl) riderId dto uuid)
  | cancelRideRequest id requester reason =>
      exact driverKnown_of_ride (Call.Uses.void (RideRequestsService.cancel_uses
        (P := fun o => o.drives = false) (fun _ => rfl) rfl (fun _ => rfl) (fun _ _ => rfl)
        id requester reason))
  | startTrip tripId userId => exact Justified.void (guarded_driverKnown rfl)
  | completeTrip tripId userId => exact Justified.void (guarded_driverKnown rfl)
  | rateTrip tripId fromUserId dto uuid =>
      apply driverKnown_of_uses
      exact Call.Uses.embed (fun _ ho => ho) (Call.Uses.void (rateTrip_uses
        (P := fun o => (AppStmt.rating o).drives = false) (fun _ => rfl) (fun _ => rfl)
        (fun _ => rfl) (fun _ _ => rfl) tripId fromUserId dto uuid))
  | connect userId => exact driverKnown_of_uses (Call.Uses.perform rfl)
  | disconnect userId =>
      apply driverKnown_of_uses
      refine Call.Uses.bind (Call.Uses.perform rfl) fun stillConnectedElsewhere => ?_
      cases stillConnectedElsewhere with
      | true => trivial
      | false =>
          exact Call.Uses.recover (Call.Uses.embed (fun _ ho => ho) (goOffline_drives cfg userId))
            fun _ => trivial
  | offerSubmit userId rideRequestId offeredFare uuid =>
      apply Justified.perform_bind
      intro w₁ _ _
      refine ⟨nofun, ?_⟩
      rintro allowed s - n
      cases allowed with
      | false => exact driverKnown_of_uses (Call.Uses.perform rfl)
      | true =>
          exact Justified.recover (submitOffer_driverKnown rfl rfl)
            fun _ _ => driverKnown_of_uses (Call.Uses.perform rfl)
  | offerAccept userId offerId uuid =>
      apply driverKnown_of_uses
      refine Call.Uses.bind (Call.Uses.perform rfl) fun allowed => ?_
      cases allowed with
      | false => exact Call.Uses.perform rfl
      | true =>
          refine Call.Uses.recover (Call.Uses.embed (fun _ ho => ho) ?_)
            fun _ => Call.Uses.perform rfl
          exact Call.Uses.void (OffersService.acceptOffer_uses (P := fun o => o.drives = false)
            (fun _ => rfl) (fun _ _ => rfl) (fun _ => rfl) (fun _ => rfl) (fun _ => rfl)
            (fun _ _ _ _ => rfl) userId offerId uuid)
  | locationUpdate userId lat lng =>
      apply Justified.of_uses (P := fun o : AppStmt => o.drives = true →
        ∃ lat lng now, o = .ride (.setLocation userId lat lng now))
      · intro w o ho hd
        exact ⟨userId, rfl, Or.inl rfl, Or.inr (ho hd)⟩
      · refine Call.Uses.embed (fun o ho hd => ?_) (onLocationUpdate_drives userId lat lng)
        obtain ⟨lat, lng, now, rfl⟩ := ho hd
        exact ⟨lat, lng, now, rfl⟩
  | trackSubscribe matchRadiusKm userId lat lng radiusKm =>
      apply driverKnown_of_uses
      refine Call.Uses.bind (Call.Uses.perform rfl) fun allowed => ?_
      cases allowed with
      | false => exact Call.Uses.perform rfl
      | true => exact Call.Uses.perform rfl
  | trackUnsubscribe userId => exact driverKnown_of_uses (Call.Uses.perform rfl)
  | goOffline userId => exact driverKnown_of_ride (goOffline_drives cfg userId)
  | runJob jobId =>
      refine driverKnown_of_ride (OfferExpiryProcessor.runJob_uses (fun _ => rfl) (fun _ => rfl)
        (fun _ => rfl) (fun job => ?_) jobId)
      exact OfferExpiryProcessor.process_uses (fun _ => rfl) (fun _ => rfl) (fun _ _ _ => rfl)
        (fun _ => rfl) (fun _ => rfl) job
  | evictIdentity userId => exact driverKnown_of_uses (Call.Uses.perform rfl)

end Calls

/-- A location is written to a row that is there. -/
theorem AppState.HasProfile.of_setLocation {cfg : Config} {s s' : AppState} {userId : Id}
    {lat lng : Coord} {now : Millis} {b : (AppStmt.ride (.setLocation userId lat lng now)).Res}
    (h : AppState.exec cfg (.ride (.setLocation userId lat lng now)) s = .ok (b, s')) :
    s.HasProfile userId := by
  have ht := (Backend.onTables_ok (fun db => db.setLocation userId lat lng now)
    (AppState.exec_ride h)).1
  simp only [RideTables.setLocation, bind_eq_ok] at ht
  obtain ⟨_, hu, -⟩ := ht
  obtain ⟨p, hp, hpu, -⟩ := Table.update_ok hu
  exact ⟨p, hp, of_decide_eq_true hpu⟩

/-- In whole requests and messages, one at a time, whoever acts as a driver is in
driver mode and has a profile, if and only if the users who place an offer or
report a location by a message are in driver mode when it takes effect. -/
theorem acts_as_driver_iff (cfg : Config) (s : AppState)
    (calls : List (AppInvocation × List Bool)) :
    ((Pool.init s).serveAll (appSystem cfg) calls).world.AllExecuted ActsAsDriver ↔
      ((Pool.init s).serveAll (appSystem cfg) calls).world.AllExecuted SendsAsDriver := by
  let Granted (w : AppWorld) (i : AppInvocation) (o : AppStmt) : Prop := o.drives = true →
    ∃ u ∈ i.actor, (i.drivesBySocket = true ∨ w.shared.InDriverMode u) ∧ w.shared.HasProfile u
  have hgranted : ((Pool.init s).serveAll (appSystem cfg) calls).world.AllExecuted Granted := by
    refine Pool.serveAll_allExecuted (I := fun _ => True) (J := DriverKnown) (Q := Granted) ?_
      (fun i w _ => code_driverKnown i w) (fun _ _ _ => trivial) ?_ trivial calls
    · exact fun _ => rfl
    · intro w i o b s' _ hJ hx hd
      obtain ⟨u, hu, hmode, hprofile⟩ := hJ hd
      refine ⟨u, hu, hmode.imp_right And.left, ?_⟩
      rcases hprofile with hprofile | ⟨lat, lng, now, rfl⟩
      · exact hprofile
      · exact .of_setLocation hx
  constructor
  · intro hacts
    refine hacts.imp₂ hacts ?_
    intro w i o hact _ hd _
    obtain ⟨u, hu, hmode, -⟩ := hact hd
    exact ⟨u, hu, hmode⟩
  · intro hsends
    refine hgranted.imp₂ hsends ?_
    intro w i o hgrant hsend hd
    obtain ⟨u, hu, hmode, hprofile⟩ := hgrant hd
    rcases hmode with hsocket | hmode
    · obtain ⟨v, hv, hmode⟩ := hsend hd hsocket
      cases Option.mem_unique hu hv
      exact ⟨u, hu, hmode, hprofile⟩
    · exact ⟨u, hu, hmode, hprofile⟩

/-- A driver on duty, and a rider who has asked for a ride. -/
def onDuty : AppState where
  rated := .unrated
    { users := ⟨[{ id := "driver", activeProfile := .driver }, { id := "rider" }], by decide⟩
      driverApplications := .empty
      driverDocuments := .empty
      files := fun _ => none
      ride :=
        { Backend.empty with
          tables :=
            { RideTables.empty with
              driverProfiles := ⟨[
                { id := "profile"
                  userId := "driver"
                  driverApplicationId := "application"
                  isOnline := true }], by decide⟩
              rideRequests := ⟨[
                { id := "request"
                  riderId := "rider"
                  pickupLat := 6
                  pickupLng := 3
                  dropoffLat := 7
                  dropoffLng := 4
                  suggestedFare := 1500 }], by decide⟩ } } }

/-- The driver's socket is open when they switch to rider mode. -/
def staleSocket : List (AppInvocation × List Bool) :=
  [(.connect "driver", []),
    (.onboarding (.setActiveProfile "driver" .rider), []),
    (.offerSubmit "driver" "request" 1500 "offer", [])]

/-- Their offer on the ride request is placed all the same. -/
theorem not_actsAsDriver_staleSocket :
    ¬ ((Pool.init onDuty).serveAll (appSystem .default) staleSocket).world.AllExecuted
      ActsAsDriver := by
  decide +kernel

end Reedr
