import Reedr.Schema

/-!
# Statements on the ride tables

Each definition is one Prisma statement, or one `$transaction` batch, of the
ride services. A batch runs its statements on a copy of the tables and returns
the copy only when all of them succeed, so a violation undoes the whole batch.
-/

namespace Reedr
open Relational

/-- The tables a ride negotiation works on. -/
structure RideTables where
  driverProfiles : Table DriverProfile
  rideRequests : Table RideRequest
  rideOffers : Table RideOffer
  trips : Table Trip

/-- An offer with `include: { driver: { include: { user: { select: { id } } } } }`. -/
structure OfferWithDriver where
  offer : RideOffer
  driverUserId : Id

/-- The same row with its ride request, as `acceptOffer` reads it. -/
structure OfferWithRequest where
  offer : RideOffer
  rideRequest : RideRequest
  driverUserId : Id

/-- A ride request with `RIDE_REQUEST_WITH_OFFERS`. -/
structure RideRequestWithOffers where
  rideRequest : RideRequest
  offers : List OfferWithDriver
  trip : Option Trip

/-- The values `acceptOffer` writes, all taken from the rows it read. -/
structure Acceptance where
  offerId : Id
  rideRequestId : Id
  driverUserId : Id
  riderId : Id
  offeredFare : Fare
  tripId : Id
  deriving DecidableEq, Repr

/-- The values `cancel` writes; `tripId` is the trip it read, if there was one. -/
structure Cancellation where
  rideRequestId : Id
  reason : Option String
  cancelledAt : Millis
  tripId : Option Id
  deriving DecidableEq, Repr

/-- The values `start` and `complete` write. -/
structure TripUpdate where
  tripId : Id
  rideRequestId : Id
  now : Millis
  deriving DecidableEq, Repr

namespace RideTables

def empty : RideTables := ⟨.empty, .empty, .empty, .empty⟩

section Reads
variable (db : RideTables)

def findDriverProfileByUser (userId : Id) : Option DriverProfile :=
  db.driverProfiles.find? fun p => p.userId = userId

def findDriverProfile (id : Id) : Option DriverProfile :=
  db.driverProfiles.find? fun p => p.id = id

def findRideRequest (id : Id) : Option RideRequest :=
  db.rideRequests.find? fun r => r.id = id

def findTrip (id : Id) : Option Trip :=
  db.trips.find? fun t => t.id = id

/-- Join an offer with its driver's user; the foreign key makes the join total. -/
def withDriver (o : RideOffer) : Option OfferWithDriver :=
  (db.findDriverProfile o.driverId).map fun p => ⟨o, p.userId⟩

def findOffer (id : Id) : Option OfferWithDriver :=
  (db.rideOffers.find? fun o => o.id = id).bind db.withDriver

def findOfferWithRequest (id : Id) : Option OfferWithRequest :=
  (db.findOffer id).bind fun o =>
    (db.findRideRequest o.offer.rideRequestId).map fun r => ⟨o.offer, r, o.driverUserId⟩

def findOtherPendingOffers (rideRequestId offerId : Id) : List OfferWithDriver :=
  (db.rideOffers.findMany fun o =>
    o.rideRequestId = rideRequestId ∧ o.status = .pending ∧ o.id ≠ offerId).filterMap
      db.withDriver

def findRideRequestWithOffers (id : Id) : Option RideRequestWithOffers :=
  (db.findRideRequest id).map fun r =>
    ⟨r, (db.rideOffers.findMany fun o => o.rideRequestId = id).filterMap db.withDriver,
      db.trips.find? fun t => t.rideRequestId = id⟩

end Reads

section Writes
variable (db : RideTables)

/-- The row an approved application brings into existence. -/
def createDriverProfile (p : DriverProfile) : Except Violation (Unit × RideTables) := do
  let driverProfiles ← db.driverProfiles.create p
  return ((), { db with driverProfiles })

def setOnline (userId : Id) (isOnline : Bool) : Except Violation (DriverProfile × RideTables) := do
  let (updated, driverProfiles) ← db.driverProfiles.update (fun p => p.userId = userId)
    fun p => { p with isOnline }
  return (updated, { db with driverProfiles })

def setLocation (userId : Id) (lat lng : Coord) (now : Millis) :
    Except Violation (DriverProfile × RideTables) := do
  let (updated, driverProfiles) ← db.driverProfiles.update (fun p => p.userId = userId)
    fun p =>
      { p with currentLat := some lat, currentLng := some lng, locationUpdatedAt := some now }
  return (updated, { db with driverProfiles })

def createRideRequest (r : RideRequest) : Except Violation (RideRequest × RideTables) := do
  let rideRequests ← db.rideRequests.create r
  return (r, { db with rideRequests })

/-- Insert a driver's first offer on a request, or re-price and reopen the one there is. -/
def upsertOffer (rideRequestId driverId : Id) (offeredFare : Fare) (uuid : Id) :
    Except Violation (RideOffer × RideTables) := do
  let (offer, rideOffers) ← db.rideOffers.upsert
    (fun o => o.rideRequestId = rideRequestId ∧ o.driverId = driverId)
    { id := uuid, rideRequestId, driverId, offeredFare, status := .pending }
    fun o => { o with offeredFare, status := .pending }
  return (offer, { db with rideOffers })

/-- The four statements of `acceptOffer`; the unique `rideRequestId` of the
trip is what stops a second acceptance. -/
def acceptBatch (a : Acceptance) : Except Violation (Trip × RideTables) := do
  let (_, rideOffers) ← db.rideOffers.update (fun o => o.id = a.offerId)
    fun o => { o with status := .accepted }
  let rideOffers ← rideOffers.updateMany
    (fun o => o.rideRequestId = a.rideRequestId ∧ o.status = .pending ∧ o.id ≠ a.offerId)
    fun o => { o with status := .expired }
  let (_, rideRequests) ← db.rideRequests.update (fun r => r.id = a.rideRequestId)
    fun r => { r with status := .matched }
  let trip : Trip :=
    { id := a.tripId, rideRequestId := a.rideRequestId, driverId := a.driverUserId
      riderId := a.riderId, agreedFare := a.offeredFare, status := .matched }
  let trips ← db.trips.create trip
  return (trip, { db with rideOffers, rideRequests, trips })

/-- `expireIfStillPending` updates by id, without the status it tested. -/
def expireOffer (offerId : Id) : Except Violation (RideOffer × RideTables) := do
  let (updated, rideOffers) ← db.rideOffers.update (fun o => o.id = offerId)
    fun o => { o with status := .expired }
  return (updated, { db with rideOffers })

def expireDriverOffers (driverProfileId : Id) : Except Violation (Unit × RideTables) := do
  let rideOffers ← db.rideOffers.updateMany
    (fun o => o.driverId = driverProfileId ∧ o.status = .pending)
    fun o => { o with status := .expired }
  return ((), { db with rideOffers })

/-- The batch of `cancel`: the trip is updated only when one had been read. An
absent reason leaves the column alone. -/
def cancelBatch (c : Cancellation) : Except Violation (RideRequest × RideTables) := do
  let (updated, rideRequests) ← db.rideRequests.update (fun r => r.id = c.rideRequestId)
    fun r => { r with
      status := .cancelled
      cancelReason := c.reason <|> r.cancelReason
      cancelledAt := some c.cancelledAt }
  let rideOffers ← db.rideOffers.updateMany
    (fun o => o.rideRequestId = c.rideRequestId ∧ o.status = .pending)
    fun o => { o with status := .expired }
  match c.tripId with
  | none => return (updated, { db with rideRequests, rideOffers })
  | some tripId =>
      let (_, trips) ← db.trips.update (fun t => t.id = tripId)
        fun t => { t with status := .cancelled, cancelReason := c.reason <|> t.cancelReason }
      return (updated, { db with rideRequests, rideOffers, trips })

def startBatch (u : TripUpdate) : Except Violation (Trip × RideTables) := do
  let (updated, trips) ← db.trips.update (fun t => t.id = u.tripId)
    fun t => { t with status := .started, startedAt := some u.now }
  let (_, rideRequests) ← db.rideRequests.update (fun r => r.id = u.rideRequestId)
    fun r => { r with status := .inProgress }
  return (updated, { db with trips, rideRequests })

def completeBatch (u : TripUpdate) : Except Violation (Trip × RideTables) := do
  let (updated, trips) ← db.trips.update (fun t => t.id = u.tripId)
    fun t => { t with status := .completed, endedAt := some u.now }
  let (_, rideRequests) ← db.rideRequests.update (fun r => r.id = u.rideRequestId)
    fun r => { r with status := .completed }
  return (updated, { db with trips, rideRequests })

end Writes

end RideTables

end Reedr
