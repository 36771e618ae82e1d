import Reedr.Library.Table

/-!
# Rows and unique constraints of the database

The tables of `schema.prisma` that the ride negotiation and the driver
onboarding read and write, with their unique constraints.

## Implementation notes

Identifiers are the UUID strings of the schema. A UUID drawn by a default is an
argument of the call that inserts the row, so a run may draw any value and the
primary key refuses a repeated one. Columns no modelled function reads
(`createdAt`, `routePolyline`, the derived geography points) are left out.
-/

namespace Reedr
open Relational

/-- A UUID. -/
abbrev Id := String

/-- A `Decimal` amount in NGN. -/
abbrev Fare := Rat

/-- A latitude or longitude in degrees. -/
abbrev Coord := Rat

/-- Milliseconds since the epoch. -/
abbrev Millis := Nat

inductive ActiveProfile where
  | rider
  | driver
  deriving DecidableEq, Repr

inductive RideRequestStatus where
  | pending
  | matched
  | inProgress
  | completed
  | cancelled
  deriving DecidableEq, Repr

inductive OfferStatus where
  | pending
  | accepted
  | rejected
  | expired
  deriving DecidableEq, Repr

inductive TripStatus where
  | matched
  | started
  | completed
  | cancelled
  deriving DecidableEq, Repr

/-- Exists only for verified drivers; `userId` and `driverApplicationId` are fixed. -/
structure DriverProfile where
  id : Id
  userId : Id
  driverApplicationId : Id
  isOnline : Bool := false
  currentLat : Option Coord := none
  currentLng : Option Coord := none
  locationUpdatedAt : Option Millis := none
  deriving DecidableEq, Repr

structure RideRequest where
  id : Id
  riderId : Id
  pickupLat : Coord
  pickupLng : Coord
  dropoffLat : Coord
  dropoffLng : Coord
  suggestedFare : Fare
  status : RideRequestStatus := .pending
  cancelReason : Option String := none
  cancelledAt : Option Millis := none
  deriving DecidableEq, Repr

/-- `driverId` is the driver's profile, not the driver's user. -/
structure RideOffer where
  id : Id
  rideRequestId : Id
  driverId : Id
  offeredFare : Fare
  status : OfferStatus := .pending
  deriving DecidableEq, Repr

/-- `driverId` and `riderId` are both users. -/
structure Trip where
  id : Id
  rideRequestId : Id
  driverId : Id
  riderId : Id
  agreedFare : Fare
  status : TripStatus := .started
  startedAt : Option Millis := none
  endedAt : Option Millis := none
  cancelReason : Option String := none
  deriving DecidableEq, Repr

inductive DriverProfileKey where
  | id (id : Id)
  | userId (id : Id)
  | driverApplicationId (id : Id)
  deriving DecidableEq

instance : Keyed DriverProfile where
  Key := DriverProfileKey
  decEq := inferInstance
  keys p := [.id p.id, .userId p.userId, .driverApplicationId p.driverApplicationId]

instance : Keyed RideRequest where
  Key := Id
  decEq := inferInstance
  keys r := [r.id]

inductive RideOfferKey where
  | id (id : Id)
  | rideRequestIdDriverId (rideRequestId driverId : Id)
  deriving DecidableEq

instance : Keyed RideOffer where
  Key := RideOfferKey
  decEq := inferInstance
  keys o := [.id o.id, .rideRequestIdDriverId o.rideRequestId o.driverId]

inductive TripKey where
  | id (id : Id)
  | rideRequestId (id : Id)
  deriving DecidableEq

instance : Keyed Trip where
  Key := TripKey
  decEq := inferInstance
  keys t := [.id t.id, .rideRequestId t.rideRequestId]

section Clash

theorem DriverProfile.clash_iff {p q : DriverProfile} :
    Clash p q ↔ p.id = q.id ∨ p.userId = q.userId ∨
      p.driverApplicationId = q.driverApplicationId := by
  show (∃ k : DriverProfileKey,
    k ∈ [.id p.id, .userId p.userId, .driverApplicationId p.driverApplicationId] ∧
    k ∈ [.id q.id, .userId q.userId, .driverApplicationId q.driverApplicationId]) ↔ _
  simp

theorem RideOffer.clash_iff {o q : RideOffer} :
    Clash o q ↔ o.id = q.id ∨ o.rideRequestId = q.rideRequestId ∧ o.driverId = q.driverId := by
  show (∃ k : RideOfferKey,
    k ∈ [.id o.id, .rideRequestIdDriverId o.rideRequestId o.driverId] ∧
    k ∈ [.id q.id, .rideRequestIdDriverId q.rideRequestId q.driverId]) ↔ _
  simp

theorem Trip.clash_iff {a b : Trip} :
    Clash a b ↔ a.id = b.id ∨ a.rideRequestId = b.rideRequestId := by
  show (∃ k : TripKey, k ∈ [.id a.id, .rideRequestId a.rideRequestId] ∧
    k ∈ [.id b.id, .rideRequestId b.rideRequestId]) ↔ _
  simp

end Clash

section Unique

theorem DriverProfile.eq_of_id {t : Table DriverProfile} {p q : DriverProfile} (hp : p ∈ t)
    (hq : q ∈ t) (h : p.id = q.id) : p = q :=
  Table.eq_of_key (DriverProfileKey.id p.id) hp hq (by simp [Keyed.keys])
    (by simp [Keyed.keys, h])

theorem DriverProfile.eq_of_userId {t : Table DriverProfile} {p q : DriverProfile} (hp : p ∈ t)
    (hq : q ∈ t) (h : p.userId = q.userId) : p = q :=
  Table.eq_of_key (DriverProfileKey.userId p.userId) hp hq (by simp [Keyed.keys])
    (by simp [Keyed.keys, h])

theorem RideRequest.eq_of_id {t : Table RideRequest} {r s : RideRequest} (hr : r ∈ t)
    (hs : s ∈ t) (h : r.id = s.id) : r = s :=
  Table.eq_of_key (r.id) hr hs (by simp [Keyed.keys]) (by simp [Keyed.keys, h])

theorem RideOffer.eq_of_id {t : Table RideOffer} {o q : RideOffer} (ho : o ∈ t)
    (hq : q ∈ t) (h : o.id = q.id) : o = q :=
  Table.eq_of_key (RideOfferKey.id o.id) ho hq (by simp [Keyed.keys])
    (by simp [Keyed.keys, h])

/-- One driver has at most one offer on a ride request. -/
theorem RideOffer.eq_of_request_driver {t : Table RideOffer} {o q : RideOffer} (ho : o ∈ t)
    (hq : q ∈ t) (hr : o.rideRequestId = q.rideRequestId) (hd : o.driverId = q.driverId) :
    o = q :=
  Table.eq_of_key (RideOfferKey.rideRequestIdDriverId o.rideRequestId o.driverId) ho hq
    (by simp [Keyed.keys]) (by simp [Keyed.keys, hr, hd])

theorem Trip.eq_of_id {t : Table Trip} {a b : Trip} (ha : a ∈ t) (hb : b ∈ t)
    (h : a.id = b.id) : a = b :=
  Table.eq_of_key (TripKey.id a.id) ha hb (by simp [Keyed.keys]) (by simp [Keyed.keys, h])

/-- A ride request has at most one trip. -/
theorem Trip.eq_of_rideRequestId {t : Table Trip} {a b : Trip} (ha : a ∈ t) (hb : b ∈ t)
    (h : a.rideRequestId = b.rideRequestId) : a = b :=
  Table.eq_of_key (TripKey.rideRequestId a.rideRequestId) ha hb (by simp [Keyed.keys])
    (by simp [Keyed.keys, h])

end Unique

end Reedr
