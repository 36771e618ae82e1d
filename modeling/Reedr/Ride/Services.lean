import Reedr.Library.Serial
import Reedr.Ride.Backend

/-!
# The ride services as calls

The methods of `OffersService`, `RideRequestsService`, `TripsService`,
`DriversService`, the expiry processor and the gateway's location handler, each
cut at its statements.

## Implementation notes

`uuid` is the value the schema default draws for the row a method inserts.
`Promise.all` over the expiry jobs takes them one after another, each to its end
also when another one was refused; the jobs are distinct, so the commands for one
do not change what those for another do. The call reports the refusal at the end.
A response is made after everything else, and the call throws what that throws.
-/

namespace Reedr
open Interleaving

/-- Execute one statement of the ride services. -/
abbrev perform (o : Stmt) : RideCall o.Res := Call.perform (σ := rideSignature) o

/-- Answer with a response, or throw what its conversion has thrown. -/
def respond {α : Type} (r : Except String α) : RideCall α :=
  Call.ofExcept (r.mapError .internal)

namespace OffersService

/-- `jobId` of the expiry job of an offer. -/
def offerJobId (offerId : Id) : String := "offer-" ++ offerId

/-- `jobId` of the disconnect job of a driver. -/
def driverJobId (driverProfileId : Id) : String := "driver-disconnect-" ++ driverProfileId

def cancelScheduledExpiry (offerId : Id) : RideCall Unit := do
  match ← perform (.getJob (offerJobId offerId)) with
  | some job => Call.recover (perform (.removeJob job.jobId)) fun _ => .done ()
  | none => return ()

def scheduleExpiry (cfg : Config) (offerId : Id) : RideCall Unit := do
  cancelScheduledExpiry offerId
  perform (.addJob (.expireOffer offerId) cfg.offerExpiryMs (offerJobId offerId))

def scheduleDriverOfferExpiry (cfg : Config) (driverProfileId : Id) : RideCall Unit :=
  perform (.addJob (.expireDriverPendingOffers driverProfileId) cfg.offerExpiryMs
    (driverJobId driverProfileId))

def submitOffer (cfg : Config) (driverUserId rideRequestId : Id) (offeredFare : Fare)
    (uuid : Id) : RideCall RideOffer := do
  let driverProfile ← Call.required (← perform (.findDriverProfileByUser driverUserId))
    (.notFound "Driver profile not found")
  let rideRequest ← Call.required (← perform (.findRideRequest rideRequestId))
    (.notFound "Ride request not found")
  Call.ensure (rideRequest.status = .pending)
    (.badRequest "Ride request is no longer accepting offers")
  let offer ← perform (.upsertOffer rideRequestId driverProfile.id offeredFare uuid)
  scheduleExpiry cfg offer.id
  perform (.emit (.offerSubmitted offer rideRequest.riderId))
  return offer

def acceptOffer (riderId offerId uuid : Id) : RideCall Trip := do
  let offer ← Call.required (← perform (.findOfferWithRequest offerId))
    (.notFound "Offer not found")
  Call.ensure (offer.rideRequest.riderId = riderId) (.forbidden "Forbidden")
  Call.ensure (offer.rideRequest.status = .pending ∧ offer.offer.status = .pending)
    (.badRequest "Offer can no longer be accepted")
  let otherPendingOffers ←
    perform (.findOtherPendingOffers offer.offer.rideRequestId offer.offer.id)
  let trip ← perform (.acceptBatch
    { offerId := offer.offer.id
      rideRequestId := offer.offer.rideRequestId
      driverUserId := offer.driverUserId
      riderId
      offeredFare := offer.offer.offeredFare
      tripId := uuid })
  Call.all (offer.offer.id :: otherPendingOffers.map fun o => o.offer.id)
    cancelScheduledExpiry
  perform (.emit (.offerAccepted { offer.rideRequest with status := .matched } trip
    { offer.offer with status := .accepted }
    (otherPendingOffers.map fun o => o.driverUserId)))
  return trip

/-- The request and the driver's user of the offer a job has expired. -/
structure ExpiredOffer where
  rideRequestId : Id
  driverUserId : Id

def expireIfStillPending (offerId : Id) : RideCall (Option ExpiredOffer) := do
  match ← perform (.findOffer offerId) with
  | none => return none
  | some offer =>
      if offer.offer.status = .pending then
        let _ ← perform (.expireOffer offerId)
        return some ⟨offer.offer.rideRequestId, offer.driverUserId⟩
      else return none

def expireAllPendingOffersForDriver (driverProfileId : Id) : RideCall Unit := do
  match ← perform (.findDriverProfile driverProfileId) with
  | none => return ()
  | some driver =>
      -- Reconnected before the grace period elapsed: leave their offers alone.
      if driver.isOnline then return ()
      else perform (.expireDriverOffers driverProfileId)

end OffersService

namespace OfferExpiryProcessor
open OffersService

def process : OfferExpiryJob → RideCall Unit
  | .expireOffer offerId => do
      match ← expireIfStillPending offerId with
      | some result =>
          perform (.emit (.offerExpired result.rideRequestId offerId result.driverUserId))
      | none => return ()
  | .expireDriverPendingOffers driverProfileId => expireAllPendingOffersForDriver driverProfileId

/-- The worker: lock a due job, process it, and settle it by the outcome. -/
def runJob (jobId : String) : RideCall Unit := do
  match ← perform (.takeJob jobId) with
  | none => return ()
  | some job =>
      Call.recover (process job.data >>= fun _ => perform (.completeJob jobId))
        fun _ => perform (.retryJob jobId)

end OfferExpiryProcessor

namespace RideRequestsService

structure CreateRideRequestDto where
  pickupLat : Coord
  pickupLng : Coord
  dropoffLat : Coord
  dropoffLng : Coord
  suggestedFare : Fare

def create (cfg : Config) (riderId : Id) (dto : CreateRideRequestDto) (uuid : Id) :
    RideCall RideRequestResponseDto := do
  let rideRequest ← perform (.createRideRequest
    { id := uuid
      riderId
      pickupLat := dto.pickupLat
      pickupLng := dto.pickupLng
      dropoffLat := dto.dropoffLat
      dropoffLng := dto.dropoffLng
      suggestedFare := dto.suggestedFare })
  let nearbyDrivers ← perform (.findNearbyDrivers dto.pickupLat dto.pickupLng)
  perform (.emit (.rideRequestCreated rideRequest (nearbyDrivers.map fun d => d.userId)))
  respond (RideRequestResponseDto.from cfg.plainToInstance
    { rideRequest, nearbyDriverCount := some nearbyDrivers.length })

/-- `assertCanCancel`: the owner, or the driver of the trip. -/
def canCancel (rideRequest : RideRequestWithOffers) (requester : Id) : Prop :=
  rideRequest.rideRequest.riderId = requester ∨
    rideRequest.trip.map (fun t => t.driverId) = some requester

instance (rideRequest : RideRequestWithOffers) (requester : Id) :
    Decidable (canCancel rideRequest requester) :=
  inferInstanceAs (Decidable (_ ∨ _))

def cancel (cfg : Config) (id requester : Id) (reason : Option String) :
    RideCall RideRequestResponseDto := do
  let rideRequest ← Call.required (← perform (.findRideRequestWithOffers id))
    (.notFound "Ride request not found")
  Call.ensure (canCancel rideRequest requester) (.forbidden "Forbidden")
  Call.ensure
    (rideRequest.rideRequest.status = .pending ∨ rideRequest.rideRequest.status = .matched)
    (.badRequest "Ride request can no longer be cancelled")
  let affectedDriverUserIds :=
    (rideRequest.offers.filter fun o => o.offer.status = .pending).map fun o => o.driverUserId
  let now ← perform .now
  let updated ← perform (.cancelBatch
    { rideRequestId := id
      reason
      cancelledAt := now
      tripId := rideRequest.trip.map fun t => t.id })
  perform (.emit (.rideRequestCancelled updated affectedDriverUserIds))
  respond (RideRequestResponseDto.from cfg.plainToInstance { rideRequest := updated })

end RideRequestsService

namespace TripsService

def findOwnedByDriver (tripId driverUserId : Id) : RideCall Trip := do
  let trip ← Call.required (← perform (.findTrip tripId)) (.notFound "Trip not found")
  Call.ensure (trip.driverId = driverUserId) (.forbidden "Forbidden")
  return trip

def start (cfg : Config) (tripId driverUserId : Id) : RideCall TripResponseDto := do
  let trip ← findOwnedByDriver tripId driverUserId
  Call.ensure (trip.status = .matched)
    (.badRequest "Trip cannot be started from its current status")
  let now ← perform .now
  let updated ← perform (.startBatch { tripId, rideRequestId := trip.rideRequestId, now })
  perform (.emit (.tripStarted updated))
  respond (TripResponseDto.from cfg.plainToInstance updated)

def complete (cfg : Config) (tripId driverUserId : Id) : RideCall TripResponseDto := do
  let trip ← findOwnedByDriver tripId driverUserId
  Call.ensure (trip.status = .started)
    (.badRequest "Trip cannot be completed from its current status")
  let now ← perform .now
  let updated ← perform (.completeBatch { tripId, rideRequestId := trip.rideRequestId, now })
  perform (.emit (.tripCompleted updated))
  respond (TripResponseDto.from cfg.plainToInstance updated)

end TripsService

namespace DriversService

/-- `CacheService.getOrSet`: a cached `null` reads as a miss. -/
def findIdentityByUserId (userId : Id) : RideCall (Option DriverIdentity) := do
  match ← perform (.getIdentity userId) with
  | some identity => return some identity
  | none =>
      let value ← perform (.findIdentity userId)
      perform (.setIdentity userId value)
      return value

def setOnlineStatus (userId : Id) (isOnline : Bool) : RideCall DriverProfile := do
  let _ ← Call.required (← findIdentityByUserId userId) (.notFound "Driver profile not found")
  let updated ← perform (.setOnline userId isOnline)
  perform (.emit (.driverOnlineStatusChanged userId isOnline updated.currentLat
    updated.currentLng))
  return updated

def updateLocation (userId : Id) (lat lng : Coord) : RideCall DriverProfile := do
  let _ ← Call.required (← findIdentityByUserId userId) (.notFound "Driver profile not found")
  let now ← perform .now
  let updated ← perform (.setLocation userId lat lng now)
  perform (.emit (.driverLocationUpdated userId lat lng))
  return updated

/-- The socket-disconnect path; a user without a profile is not a driver. -/
def goOffline (cfg : Config) (userId : Id) : RideCall Unit := do
  match ← findIdentityByUserId userId with
  | none => return ()
  | some profile =>
      let updated ← perform (.setOnline userId false)
      perform (.emit (.driverOnlineStatusChanged userId false updated.currentLat
        updated.currentLng))
      OffersService.scheduleDriverOfferExpiry cfg profile.id

end DriversService

namespace RealtimeGateway

/-- The `driver:location:update` handler; a failure is reported to the sender only. -/
def onLocationUpdate (userId : Id) (lat lng : Coord) : RideCall Unit := do
  match ← perform (.consumeLocationUpdate userId) with
  | false => return ()
  | true =>
      Call.recover
        (do
          let _ ← DriversService.updateLocation userId lat lng
          match ← perform (.activeTripRider userId) with
          | some riderId => perform (.send riderId (.driverLocationUpdate userId lat lng))
          | none => return ())
        fun _ => .done ()

end RealtimeGateway

/-- Everything that can be asked of the ride services. The last three are the
rest of the application: the approval that creates a driver profile, the expiry
of a cache entry, and the passing of time. -/
inductive Invocation where
  | create (riderId : Id) (dto : RideRequestsService.CreateRideRequestDto) (uuid : Id)
  | cancel (id requester : Id) (reason : Option String)
  | submitOffer (driverUserId rideRequestId : Id) (offeredFare : Fare) (uuid : Id)
  | acceptOffer (riderId offerId uuid : Id)
  | start (tripId driverUserId : Id)
  | complete (tripId driverUserId : Id)
  /-- `OfferExpiryProcessor.process`, whenever a worker calls it. -/
  | process (job : OfferExpiryJob)
  /-- A worker taking a due job from the queue. -/
  | runJob (jobId : String)
  | setOnlineStatus (userId : Id) (isOnline : Bool)
  | goOffline (userId : Id)
  | locationUpdate (userId : Id) (lat lng : Coord)
  | verifyDriver (userId driverApplicationId uuid : Id)
  | evictIdentity (userId : Id)
  | elapse (duration : Millis)

/-- The call behind each invocation. -/
def Invocation.code (cfg : Config) : Invocation → RideCall Unit
  | .create riderId dto uuid => (RideRequestsService.create cfg riderId dto uuid).void
  | .cancel id requester reason => (RideRequestsService.cancel cfg id requester reason).void
  | .submitOffer driverUserId rideRequestId offeredFare uuid =>
      (OffersService.submitOffer cfg driverUserId rideRequestId offeredFare uuid).void
  | .acceptOffer riderId offerId uuid => (OffersService.acceptOffer riderId offerId uuid).void
  | .start tripId driverUserId => (TripsService.start cfg tripId driverUserId).void
  | .complete tripId driverUserId => (TripsService.complete cfg tripId driverUserId).void
  | .process job => OfferExpiryProcessor.process job
  | .runJob jobId => OfferExpiryProcessor.runJob jobId
  | .setOnlineStatus userId isOnline => (DriversService.setOnlineStatus userId isOnline).void
  | .goOffline userId => DriversService.goOffline cfg userId
  | .locationUpdate userId lat lng => RealtimeGateway.onLocationUpdate userId lat lng
  | .verifyDriver userId driverApplicationId uuid =>
      perform (.createDriverProfile { id := uuid, userId, driverApplicationId })
  | .evictIdentity userId => perform (.evictIdentity userId)
  | .elapse duration => perform (.elapse duration)

/-- The ride services with a database, queue and cache that may be out of reach. -/
def rideSystem (cfg : Config) : System rideSignature ServiceError Backend Invocation where
  code := Invocation.code cfg
  exec := Backend.exec cfg
  external := Stmt.external
  outage := .outage

theorem Backend.frame {cfg : Config} {o : Stmt} {s s' : Backend} {b : o.Res}
    (h : (rideSystem cfg).exec o s = .ok (b, s')) : Backend.Frame o s s' :=
  exec_frame h

abbrev RideWorld := World rideSignature Backend Invocation
abbrev RidePool := Pool rideSignature ServiceError Backend Invocation
abbrev RideMove := Move Invocation

/-- No call yet, on empty tables, an empty queue and a freshly started gateway. -/
def ridePool : RidePool := Pool.init Backend.empty

end Reedr
