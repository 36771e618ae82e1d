import Reedr.Ride.Tables

/-!
# What the ride services answer with

The response classes of the ride services and the conversion of rows into them.

## Implementation notes

`plainToInstance` is a library function and stays a parameter: it makes an instance
of a response class out of a plain object, or throws. A plain object is written with
the columns that its class exposes, since the library drops all others. A driver
within an offer is shown as their user.
-/

namespace Reedr

/-- An offer as the API shows it. -/
structure RideOfferResponseDto where
  id : Id
  offeredFare : Fare
  status : OfferStatus
  driver : Id
  deriving DecidableEq, Repr

/-- A ride request as the API shows it. -/
structure RideRequestResponseDto where
  id : Id
  riderId : Id
  pickupLat : Coord
  pickupLng : Coord
  dropoffLat : Coord
  dropoffLng : Coord
  suggestedFare : Fare
  status : RideRequestStatus
  cancelReason : Option String
  cancelledAt : Option Millis
  nearbyDriverCount : Option Nat
  trip : Option Trip
  offers : Option (List RideOfferResponseDto)
  deriving DecidableEq, Repr

/-- A trip as the API shows it. -/
structure TripResponseDto where
  id : Id
  rideRequestId : Id
  driverId : Id
  riderId : Id
  agreedFare : Fare
  status : TripStatus
  startedAt : Option Millis
  endedAt : Option Millis
  cancelReason : Option String
  deriving DecidableEq, Repr

/-- The response classes that expose a fare. -/
inductive ResponseClass where
  | rideOffer
  | rideRequest
  | trip

/-- The instances of a response class. -/
abbrev ResponseClass.Instance : ResponseClass → Type
  | rideOffer => RideOfferResponseDto
  | rideRequest => RideRequestResponseDto
  | trip => TripResponseDto

/-- `plainToInstance` with `excludeExtraneousValues`: an instance, or the message of
the error thrown. -/
abbrev PlainToInstance := (c : ResponseClass) → c.Instance → Except String c.Instance

/-- What `class-transformer` does with a fare: it clones the `Decimal` by its
constructor without an argument, which throws. -/
def PlainToInstance.decimalError : PlainToInstance :=
  fun _ _ => .error "[DecimalError] Invalid argument: undefined"

/-- What `RideRequestResponseDto.from` takes: a row, and what its caller has added. -/
structure RideRequestEntity where
  rideRequest : RideRequest
  nearbyDriverCount : Option Nat := none
  trip : Option Trip := none
  offers : Option (List OfferWithDriver) := none

/-- The entity of a request read with its offers and its trip. -/
def RideRequestWithOffers.entity (r : RideRequestWithOffers) : RideRequestEntity :=
  { rideRequest := r.rideRequest, trip := r.trip, offers := some r.offers }

variable (plainToInstance : PlainToInstance)

def RideOfferResponseDto.from (entity : OfferWithDriver) : Except String RideOfferResponseDto :=
  plainToInstance .rideOffer
    { id := entity.offer.id
      offeredFare := entity.offer.offeredFare
      status := entity.offer.status
      driver := entity.driverUserId }

/-- The offers, where there are any, are converted before the request that holds them. -/
def RideRequestResponseDto.from (entity : RideRequestEntity) :
    Except String RideRequestResponseDto := do
  let offers ← match entity.offers with
    | none => pure none
    | some offers => some <$> offers.mapM (RideOfferResponseDto.from plainToInstance)
  plainToInstance .rideRequest
    { id := entity.rideRequest.id
      riderId := entity.rideRequest.riderId
      pickupLat := entity.rideRequest.pickupLat
      pickupLng := entity.rideRequest.pickupLng
      dropoffLat := entity.rideRequest.dropoffLat
      dropoffLng := entity.rideRequest.dropoffLng
      suggestedFare := entity.rideRequest.suggestedFare
      status := entity.rideRequest.status
      cancelReason := entity.rideRequest.cancelReason
      cancelledAt := entity.rideRequest.cancelledAt
      nearbyDriverCount := entity.nearbyDriverCount
      trip := entity.trip
      offers }

def TripResponseDto.from (entity : Trip) : Except String TripResponseDto :=
  plainToInstance .trip
    { id := entity.id
      rideRequestId := entity.rideRequestId
      driverId := entity.driverId
      riderId := entity.riderId
      agreedFare := entity.agreedFare
      status := entity.status
      startedAt := entity.startedAt
      endedAt := entity.endedAt
      cancelReason := entity.cancelReason }

end Reedr
