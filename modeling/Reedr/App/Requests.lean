import Reedr.Ratings.Services

/-!
# Requests over both transports

The HTTP routes with `ActiveProfileGuard`, and the connections and messages of
`RealtimeGateway`, on top of the services.

## Implementation notes

A request carries the user of its access token and a message the user its socket
was authenticated as when it connected; neither is looked up again. A message
may be handled after the last socket of its user has closed. Bodies have passed
the validation of their DTOs. The event handlers of the gateway run inside the
statement that emits the event. Routes that only read are left out.
-/

namespace Reedr
open Relational Interleaving

/-- The limiters of the gateway next to the one for locations. -/
inductive WsLimit where
  | offerSubmitLimiter
  | offerAcceptLimiter
  | trackSubscribeLimiter
  deriving DecidableEq, Repr

/-- What an `error` event tells the sender of a message. -/
inductive SocketError where
  | message (text : String)
  | thrown (e : ServiceError)
  deriving DecidableEq, Repr

/-- The services' state with the sockets and the other limiters of the gateway. -/
structure AppState where
  rated : RatedRegistry
  /-- How many sockets are in the room of a user. -/
  rooms : Id → Nat := fun _ => 0
  limiters : WsLimit → WsRateLimiter := fun _ => { limit := 5, windowMs := 5000 }
  socketErrors : List (Id × SocketError) := []

/-- What the guard selects of a user. -/
structure UserMode where
  activeProfile : ActiveProfile
  driverProfileId : Option Id
  deriving DecidableEq, Repr

inductive AppStmt where
  | rating (o : RatingStmt)
  | findUserMode (userId : Id)
  | joinRoom (userId : Id)
  /-- Leave the room and forget what the gateway keeps about the user; tells
  whether the user is still connected elsewhere. -/
  | dropSocket (userId : Id)
  | consume (limit : WsLimit) (userId : Id)
  | setTrackSubscription (userId : Id) (viewport : Viewport)
  | deleteTrackSubscription (userId : Id)
  | emitError (userId : Id) (error : SocketError)

namespace AppStmt

abbrev Res : AppStmt → Type
  | rating o => o.Res
  | findUserMode _ => Option UserMode
  | joinRoom _ => Unit
  | dropSocket _ => Bool
  | consume _ _ => Bool
  | setTrackSubscription _ _ => Unit
  | deleteTrackSubscription _ => Unit
  | emitError _ _ => Unit

/-- Of the statements here, only the guard's leaves the process. -/
def external : AppStmt → Bool
  | rating o => o.external
  | findUserMode _ => true
  | _ => false

@[match_pattern] abbrev onboarding (o : OnboardingStmt) : AppStmt := .rating (.onboarding o)

@[match_pattern] abbrev ride (o : Stmt) : AppStmt := .onboarding (.ride o)

end AppStmt

abbrev appSignature : Signature := ⟨AppStmt, AppStmt.Res⟩

/-- A request, a message or a background job. -/
abbrev AppCall (α : Type) := Call appSignature ServiceError α

/-- Execute one statement of a request. -/
abbrev issue (o : AppStmt) : AppCall o.Res := Call.perform (σ := appSignature) o

def ratingsInApp : Signature.Embedding ratingSignature appSignature where
  op := .rating
  res _ r := r

def onboardingInApp : Signature.Embedding onboardingSignature appSignature where
  op := .onboarding
  res _ r := r

def rideInApp : Signature.Embedding rideSignature appSignature where
  op := .ride
  res _ r := r

namespace AppState
variable (s : AppState)

abbrev registry : Registry := s.rated.registry

abbrev tables : RideTables := s.registry.ride.tables

/-- Write to the part of the gateway's memory that the ride services share. -/
def updateGateway (f : Gateway → Gateway) : AppState :=
  let ride := { s.registry.ride with gateway := f s.registry.ride.gateway }
  { s with rated := { s.rated with registry := { s.registry with ride } } }

/-- `handleDisconnect` up to its only `await`. -/
def dropSocket (userId : Id) : AppState :=
  { s.updateGateway fun g =>
      { g.deleteTrackSubscription userId with
        locationUpdateLimiter := g.locationUpdateLimiter.clear userId } with
    rooms := Function.update s.rooms userId (s.rooms userId - 1)
    limiters := fun limit => (s.limiters limit).clear userId }

/-- What each statement does and what it returns. -/
def exec (cfg : Config) : (o : AppStmt) → AppState → Except ServiceError (o.Res × AppState)
  | .rating o, s =>
      match RatedRegistry.exec cfg o s.rated with
      | .ok (b, rated) => .ok (b, { s with rated })
      | .error e => .error e
  | .findUserMode userId, s =>
      let driverProfile := s.tables.findDriverProfileByUser userId
      .ok ((s.registry.users.find? fun u => u.id = userId).map fun u =>
        ⟨u.activeProfile, driverProfile.map fun p => p.id⟩, s)
  | .joinRoom userId, s =>
      .ok ((), { s with rooms := Function.update s.rooms userId (s.rooms userId + 1) })
  | .dropSocket userId, s =>
      .ok (0 < (s.dropSocket userId).rooms userId, s.dropSocket userId)
  | .consume limit userId, s =>
      let r := (s.limiters limit).consume userId s.registry.ride.clock
      .ok (r.1, { s with limiters := Function.update s.limiters limit r.2 })
  | .setTrackSubscription userId viewport, s =>
      .ok ((), s.updateGateway fun g => g.setTrackSubscription userId viewport)
  | .deleteTrackSubscription userId, s =>
      .ok ((), s.updateGateway fun g => g.deleteTrackSubscription userId)
  | .emitError userId error, s =>
      .ok ((), { s with socketErrors := s.socketErrors ++ [(userId, error)] })

end AppState

namespace ActiveProfileGuard

/-- Both halves of a driver check are read from the database, not the token. -/
def canActivate (userId : Id) (required : ActiveProfile) : AppCall Unit := do
  let record ← issue (.findUserMode userId)
  Call.ensure (record.map (fun r => r.activeProfile) = some required)
    (.forbidden (if required = .driver then "Switch to driver mode to perform this action"
      else "Switch to rider mode to perform this action"))
  Call.ensure (¬ (required = .driver ∧ record.bind (fun r => r.driverProfileId) = none))
    (.forbidden "Complete driver verification first")

end ActiveProfileGuard

/-- A route of the ride services that requires a mode. -/
def guarded {α : Type} (userId : Id) (required : ActiveProfile) (c : RideCall α) : AppCall α := do
  ActiveProfileGuard.canActivate userId required
  c.embed rideInApp

namespace RealtimeGateway

/-- A connection whose token has been verified. -/
def handleConnection (userId : Id) : AppCall Unit := issue (.joinRoom userId)

/-- Going offline is not tied to a mode, and its failure is only logged. -/
def handleDisconnect (cfg : Config) (userId : Id) : AppCall Unit := do
  let stillConnectedElsewhere ← issue (.dropSocket userId)
  if stillConnectedElsewhere then return ()
  else Call.recover ((DriversService.goOffline cfg userId).embed rideInApp) fun _ => .done ()

/-- A handler that reports to the sender's socket what it catches. -/
def reporting {α : Type} (userId : Id) (c : RideCall α) : AppCall Unit :=
  Call.recover (c.void.embed rideInApp) fun e => issue (.emitError userId (.thrown e))

def onOfferSubmit (cfg : Config) (userId rideRequestId : Id) (offeredFare : Fare) (uuid : Id) :
    AppCall Unit := do
  match ← issue (.consume .offerSubmitLimiter userId) with
  | false => issue (.emitError userId (.message "Too many offers submitted — slow down"))
  | true => reporting userId (OffersService.submitOffer cfg userId rideRequestId offeredFare uuid)

def onOfferAccept (userId offerId uuid : Id) : AppCall Unit := do
  match ← issue (.consume .offerAcceptLimiter userId) with
  | false => issue (.emitError userId (.message "Too many requests — slow down"))
  | true => reporting userId (OffersService.acceptOffer userId offerId uuid)

/-- Without a radius of its own the viewport has `RIDE_MATCH_RADIUS_KM`. -/
def onTrackSubscribe (matchRadiusKm : Rat) (userId : Id) (lat lng : Coord)
    (radiusKm : Option Rat) : AppCall Unit := do
  match ← issue (.consume .trackSubscribeLimiter userId) with
  | false => issue (.emitError userId (.message "Too many requests — slow down"))
  | true =>
      issue (.setTrackSubscription userId
        { lat, lng, radiusMeters := radiusKm.getD matchRadiusKm * 1000 })

end RealtimeGateway

/-- Everything that reaches the application: the routes, with what needs no guard
under `onboarding`, the sockets and their messages, and the background. -/
inductive AppInvocation where
  | onboarding (i : OnboardingInvocation)
  | updateStatus (userId : Id) (isOnline : Bool)
  | updateLocation (userId : Id) (lat lng : Coord)
  | createRideRequest (riderId : Id) (dto : RideRequestsService.CreateRideRequestDto) (uuid : Id)
  | cancelRideRequest (id requester : Id) (reason : Option String)
  | startTrip (tripId userId : Id)
  | completeTrip (tripId userId : Id)
  | rateTrip (tripId fromUserId : Id) (dto : RateTripDto) (uuid : Id)
  | connect (userId : Id)
  | disconnect (userId : Id)
  | offerSubmit (userId rideRequestId : Id) (offeredFare : Fare) (uuid : Id)
  | offerAccept (userId offerId uuid : Id)
  | locationUpdate (userId : Id) (lat lng : Coord)
  | trackSubscribe (matchRadiusKm : Rat) (userId : Id) (lat lng : Coord) (radiusKm : Option Rat)
  | trackUnsubscribe (userId : Id)
  | goOffline (userId : Id)
  | runJob (jobId : String)
  | evictIdentity (userId : Id)

/-- The call behind each invocation. -/
def AppInvocation.code (cfg : Config) : AppInvocation → AppCall Unit
  | .onboarding i => (i.code cfg).embed onboardingInApp
  | .updateStatus userId isOnline =>
      (guarded userId .driver (DriversService.setOnlineStatus userId isOnline)).void
  | .updateLocation userId lat lng =>
      (guarded userId .driver (DriversService.updateLocation userId lat lng)).void
  | .createRideRequest riderId dto uuid =>
      (guarded riderId .rider (RideRequestsService.create cfg riderId dto uuid)).void
  | .cancelRideRequest id requester reason =>
      (RideRequestsService.cancel cfg id requester reason).void.embed rideInApp
  | .startTrip tripId userId => (guarded userId .driver (TripsService.start cfg tripId userId)).void
  | .completeTrip tripId userId =>
      (guarded userId .driver (TripsService.complete cfg tripId userId)).void
  | .rateTrip tripId fromUserId dto uuid =>
      (RatingsService.rateTrip tripId fromUserId dto uuid).void.embed ratingsInApp
  | .connect userId => RealtimeGateway.handleConnection userId
  | .disconnect userId => RealtimeGateway.handleDisconnect cfg userId
  | .offerSubmit userId rideRequestId offeredFare uuid =>
      RealtimeGateway.onOfferSubmit cfg userId rideRequestId offeredFare uuid
  | .offerAccept userId offerId uuid => RealtimeGateway.onOfferAccept userId offerId uuid
  | .locationUpdate userId lat lng =>
      (RealtimeGateway.onLocationUpdate userId lat lng).embed rideInApp
  | .trackSubscribe matchRadiusKm userId lat lng radiusKm =>
      RealtimeGateway.onTrackSubscribe matchRadiusKm userId lat lng radiusKm
  | .trackUnsubscribe userId => issue (.deleteTrackSubscription userId)
  | .goOffline userId => (DriversService.goOffline cfg userId).embed rideInApp
  | .runJob jobId => (OfferExpiryProcessor.runJob jobId).embed rideInApp
  | .evictIdentity userId => issue (.ride (.evictIdentity userId))

/-- The application over services that may be out of reach. -/
def appSystem (cfg : Config) : System appSignature ServiceError AppState AppInvocation where
  code := AppInvocation.code cfg
  exec := AppState.exec cfg
  external := AppStmt.external
  outage := .outage

abbrev AppWorld := World appSignature AppState AppInvocation
abbrev AppPool := Pool appSignature ServiceError AppState AppInvocation
abbrev AppMove := Move AppInvocation

theorem ratingsInApp_lifts (cfg : Config) :
    ratingsInApp.Lifts (ratingSystem cfg) (appSystem cfg) AppState.rated where
  ok {o s b s'} h := by
    simp only [appSystem, ratingsInApp, AppState.exec] at h
    split at h
    · next hx =>
        cases h
        exact hx
    · cases h
  error {o s e} h := by
    simp only [appSystem, ratingsInApp, AppState.exec] at h
    split at h
    · cases h
    · next hx =>
        cases h
        exact hx
  external h := h
  outage := rfl

theorem onboardingInApp_lifts (cfg : Config) :
    onboardingInApp.Lifts (onboardingSystem cfg) (appSystem cfg) AppState.registry where
  ok h := (onboardingInRatings_lifts cfg).ok ((ratingsInApp_lifts cfg).ok h)
  error h := (onboardingInRatings_lifts cfg).error ((ratingsInApp_lifts cfg).error h)
  external h := h
  outage := rfl

theorem rideInApp_lifts (cfg : Config) :
    rideInApp.Lifts (rideSystem cfg) (appSystem cfg) fun s => s.registry.ride where
  ok h := (rideInRatings_lifts cfg).ok ((ratingsInApp_lifts cfg).ok h)
  error h := (rideInRatings_lifts cfg).error ((ratingsInApp_lifts cfg).error h)
  external h := h
  outage := rfl

end Reedr
