import Reedr.Realtime.WsRateLimiter

/-!
# Domain events and the realtime gateway

The services emit domain events; the gateway is their only consumer. It keeps
its maps in process memory and turns each event into messages to user rooms.

## Implementation notes

`sent` lists every message with the user whose room it went to, in order. The
great-circle distance is a parameter: nothing here depends on its formula.
-/

namespace Reedr

inductive DomainEvent where
  | rideRequestCreated (rideRequest : RideRequest) (nearbyDriverUserIds : List Id)
  | offerSubmitted (offer : RideOffer) (riderId : Id)
  | offerAccepted (rideRequest : RideRequest) (trip : Trip) (acceptedOffer : RideOffer)
      (rejectedDriverUserIds : List Id)
  | tripStarted (trip : Trip)
  | tripCompleted (trip : Trip)
  | rideRequestCancelled (rideRequest : RideRequest) (affectedDriverUserIds : List Id)
  | offerExpired (rideRequestId offerId driverUserId : Id)
  | driverLocationUpdated (driverUserId : Id) (lat lng : Coord)
  | driverOnlineStatusChanged (driverUserId : Id) (isOnline : Bool) (lat lng : Option Coord)
  deriving DecidableEq, Repr

/-- What the gateway sends to a room, by the name of the socket event. -/
inductive Message where
  | rideRequestNew (id : Id) (pickupLat pickupLng dropoffLat dropoffLng : Coord)
      (suggestedFare : Fare)
  | rideOfferNew (offer : RideOffer)
  | rideMatched (rideRequest : RideRequest) (trip : Trip)
  | rideOfferExpired (rideRequestId offerId : Id)
  | tripStarted (trip : Trip)
  | tripCompleted (trip : Trip)
  | rideRequestCancelled (rideRequestId : Id)
  /-- `driver:location`, the pin on the nearby-drivers map. -/
  | driverLocation (driverId : Id) (lat lng : Coord)
  | driverOffline (driverId : Id)
  /-- `driver:location:update`, the relay to the rider of the driver's trip. -/
  | driverLocationUpdate (driverId : Id) (lat lng : Coord)
  deriving DecidableEq, Repr

/-- The map viewport a rider subscribed with. -/
structure Viewport where
  lat : Coord
  lng : Coord
  radiusMeters : Rat
  deriving DecidableEq, Repr

structure Gateway where
  activeTripRiderByDriver : Id → Option Id := fun _ => none
  riderTrackSubscriptions : List (Id × Viewport) := []
  locationUpdateLimiter : WsRateLimiter := { limit := 3, windowMs := 1000 }
  sent : List (Id × Message) := []

namespace Gateway

/-- `server.to(userRoom(userId)).emit(...)`. -/
def send (g : Gateway) (userId : Id) (m : Message) : Gateway :=
  { g with sent := g.sent ++ [(userId, m)] }

def sendAll (g : Gateway) (userIds : List Id) (m : Message) : Gateway :=
  userIds.foldl (fun g userId => g.send userId m) g

/-- `activeTripRiderByDriver.set`, or `delete` with `none`. -/
def setActiveTripRider (g : Gateway) (driverId : Id) (riderId : Option Id) : Gateway :=
  { g with activeTripRiderByDriver := Function.update g.activeTripRiderByDriver driverId riderId }

/-- `riderTrackSubscriptions.set`; an entry that is there keeps its place. -/
def setTrackSubscription (g : Gateway) (riderId : Id) (viewport : Viewport) : Gateway :=
  { g with
    riderTrackSubscriptions :=
      if ∃ s ∈ g.riderTrackSubscriptions, s.1 = riderId then
        g.riderTrackSubscriptions.map fun s => if s.1 = riderId then (riderId, viewport) else s
      else g.riderTrackSubscriptions ++ [(riderId, viewport)] }

def deleteTrackSubscription (g : Gateway) (riderId : Id) : Gateway :=
  { g with
    riderTrackSubscriptions := g.riderTrackSubscriptions.filter fun s => s.1 ≠ riderId }

/-- The riders whose viewport contains a position. -/
def ridersTracking (haversineMeters : Coord → Coord → Coord → Coord → Rat) (g : Gateway)
    (lat lng : Coord) : List Id :=
  (g.riderTrackSubscriptions.filter fun s =>
    haversineMeters s.2.lat s.2.lng lat lng ≤ s.2.radiusMeters).map Prod.fst

/-- The `@OnEvent` handlers. -/
def handle (haversineMeters : Coord → Coord → Coord → Coord → Rat) (g : Gateway) :
    DomainEvent → Gateway
  | .rideRequestCreated r nearbyDriverUserIds =>
      g.sendAll nearbyDriverUserIds
        (.rideRequestNew r.id r.pickupLat r.pickupLng r.dropoffLat r.dropoffLng r.suggestedFare)
  | .offerSubmitted offer riderId => g.send riderId (.rideOfferNew offer)
  | .offerAccepted rideRequest trip _ _ =>
      (((g.setActiveTripRider trip.driverId (some trip.riderId)).send trip.riderId
        (.rideMatched rideRequest trip)).send trip.driverId (.rideMatched rideRequest trip))
  | .offerExpired rideRequestId offerId driverUserId =>
      g.send driverUserId (.rideOfferExpired rideRequestId offerId)
  | .tripStarted trip =>
      (g.send trip.riderId (.tripStarted trip)).send trip.driverId (.tripStarted trip)
  | .tripCompleted trip =>
      (((g.setActiveTripRider trip.driverId none).send trip.riderId
        (.tripCompleted trip)).send trip.driverId (.tripCompleted trip))
  | .rideRequestCancelled rideRequest affectedDriverUserIds =>
      (g.send rideRequest.riderId (.rideRequestCancelled rideRequest.id)).sendAll
        affectedDriverUserIds (.rideRequestCancelled rideRequest.id)
  | .driverLocationUpdated driverUserId lat lng =>
      g.sendAll (g.ridersTracking haversineMeters lat lng) (.driverLocation driverUserId lat lng)
  | .driverOnlineStatusChanged driverUserId isOnline lat lng =>
      -- Only going offline is pushed, and only for a driver with a known position.
      match isOnline, lat, lng with
      | false, some lat, some lng =>
          g.sendAll (g.ridersTracking haversineMeters lat lng) (.driverOffline driverUserId)
      | _, _, _ => g

section Frame
variable (haversineMeters : Coord → Coord → Coord → Coord → Rat)

/-- What is sent to several rooms is sent to one after the other. -/
theorem sendAll_eq (g : Gateway) (userIds : List Id) (m : Message) :
    g.sendAll userIds m = { g with sent := g.sent ++ userIds.map fun userId => (userId, m) } := by
  induction userIds generalizing g with
  | nil => simp [sendAll]
  | cons u us ih =>
      show (g.send u m).sendAll us m = _
      rw [ih]
      simp [send]

@[simp] theorem send_active (g : Gateway) (userId : Id) (m : Message) :
    (g.send userId m).activeTripRiderByDriver = g.activeTripRiderByDriver := rfl

@[simp] theorem sendAll_active (g : Gateway) (userIds : List Id) (m : Message) :
    (g.sendAll userIds m).activeTripRiderByDriver = g.activeTripRiderByDriver := by
  rw [sendAll_eq]

/-- Acceptance points the driver's entry at the new rider, completion clears it,
and no other event touches the map. -/
theorem handle_active (g : Gateway) (ev : DomainEvent) :
    (g.handle haversineMeters ev).activeTripRiderByDriver =
      match ev with
      | .offerAccepted _ trip _ _ =>
          Function.update g.activeTripRiderByDriver trip.driverId (some trip.riderId)
      | .tripCompleted trip => Function.update g.activeTripRiderByDriver trip.driverId none
      | _ => g.activeTripRiderByDriver := by
  cases ev with
  | driverOnlineStatusChanged d on lat lng =>
      cases on <;> cases lat <;> cases lng <;> simp [handle]
  | _ => simp [handle, setActiveTripRider]

/-- Nothing that was sent is taken back. -/
theorem handle_sent (g : Gateway) (ev : DomainEvent) :
    ∃ more, (g.handle haversineMeters ev).sent = g.sent ++ more := by
  cases ev with
  | driverOnlineStatusChanged d on lat lng =>
      cases on <;> cases lat <;> cases lng <;> simp [handle, sendAll_eq]
  | _ => simp [handle, setActiveTripRider, send, sendAll_eq]

theorem handle_locationUpdateLimiter (g : Gateway) (ev : DomainEvent) :
    (g.handle haversineMeters ev).locationUpdateLimiter = g.locationUpdateLimiter := by
  cases ev with
  | driverOnlineStatusChanged d on lat lng =>
      cases on <;> cases lat <;> cases lng <;> simp [handle, sendAll_eq]
  | _ => simp [handle, setActiveTripRider, send, sendAll_eq]

end Frame

end Gateway

end Reedr
