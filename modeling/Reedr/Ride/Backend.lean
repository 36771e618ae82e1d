import Reedr.Library.Call
import Reedr.Ride.Effects
import Reedr.Ride.Jobs
import Reedr.Ride.Responses
import Reedr.Realtime.Gateway

/-!
# The shared state of the ride services and their statements

`Stmt` lists everything a ride service asks of the outside of its own code: one
constructor per Prisma statement or batch, per queue and cache command, per
emitted event, and per access to the gateway's memory and the clock.
-/

namespace Reedr
open Relational Interleaving

/-- What the ride services take from configuration, from PostGIS and from
`class-transformer`. -/
structure Config where
  offerExpirySeconds : Nat
  offerExpirySeconds_pos : 0 < offerExpirySeconds
  findNearbyDrivers : Table DriverProfile → Coord → Coord → List DriverProfile
  haversineMeters : Coord → Coord → Coord → Coord → Rat
  plainToInstance : PlainToInstance

/-- `OFFER_EXPIRY_SECONDS` as the delay of a job. -/
def Config.offerExpiryMs (cfg : Config) : Millis := cfg.offerExpirySeconds * 1000

/-- The default delay of a minute, with no driver online to be matched. -/
def Config.default : Config where
  offerExpirySeconds := 60
  offerExpirySeconds_pos := by decide
  findNearbyDrivers _ _ _ := []
  haversineMeters _ _ _ _ := 0
  plainToInstance := .decimalError

/-- What a service throws. -/
inductive ServiceError where
  | notFound (message : String)
  | forbidden (message : String)
  | badRequest (message : String)
  | conflict (message : String)
  | constraint (violation : Violation)
  /-- A job that its worker holds cannot be removed. -/
  | jobLocked
  /-- An error that no code of the services has made, such as that of a library. -/
  | internal (message : String)
  | outage
  deriving DecidableEq, Repr

/-- The cached `{id, userId}` of a driver profile. -/
structure DriverIdentity where
  id : Id
  userId : Id
  deriving DecidableEq, Repr

/-- Database, queue, cache, gateway memory and clock. -/
structure Backend where
  tables : RideTables
  jobs : JobQueue
  driverIdentities : Id → Option DriverIdentity
  gateway : Gateway
  clock : Millis

def Backend.empty : Backend := ⟨.empty, Table.empty, fun _ => none, {}, 0⟩

inductive Stmt where
  | findDriverProfileByUser (userId : Id)
  | findDriverProfile (id : Id)
  | findRideRequest (id : Id)
  | findRideRequestWithOffers (id : Id)
  | findOffer (id : Id)
  | findOfferWithRequest (id : Id)
  | findOtherPendingOffers (rideRequestId offerId : Id)
  | findTrip (id : Id)
  | findNearbyDrivers (lat lng : Coord)
  | createDriverProfile (p : DriverProfile)
  | setOnline (userId : Id) (isOnline : Bool)
  | setLocation (userId : Id) (lat lng : Coord) (now : Millis)
  | createRideRequest (r : RideRequest)
  | upsertOffer (rideRequestId driverId : Id) (offeredFare : Fare) (uuid : Id)
  | acceptBatch (a : Acceptance)
  | expireOffer (offerId : Id)
  | expireDriverOffers (driverProfileId : Id)
  | cancelBatch (c : Cancellation)
  | startBatch (u : TripUpdate)
  | completeBatch (u : TripUpdate)
  | getJob (jobId : String)
  | removeJob (jobId : String)
  | addJob (data : OfferExpiryJob) (delay : Millis) (jobId : String)
  | takeJob (jobId : String)
  | completeJob (jobId : String)
  | retryJob (jobId : String)
  | getIdentity (userId : Id)
  | findIdentity (userId : Id)
  | setIdentity (userId : Id) (identity : Option DriverIdentity)
  | evictIdentity (userId : Id)
  | emit (ev : DomainEvent)
  | consumeLocationUpdate (userId : Id)
  | activeTripRider (driverUserId : Id)
  | send (userId : Id) (m : Message)
  | now
  | elapse (duration : Millis)

namespace Stmt

/-- The result type of each statement. -/
abbrev Res : Stmt → Type
  | findDriverProfileByUser _ => Option DriverProfile
  | findDriverProfile _ => Option DriverProfile
  | findRideRequest _ => Option RideRequest
  | findRideRequestWithOffers _ => Option RideRequestWithOffers
  | findOffer _ => Option OfferWithDriver
  | findOfferWithRequest _ => Option OfferWithRequest
  | findOtherPendingOffers _ _ => List OfferWithDriver
  | findTrip _ => Option Trip
  | findNearbyDrivers _ _ => List DriverProfile
  | createDriverProfile _ => Unit
  | setOnline _ _ => DriverProfile
  | setLocation _ _ _ _ => DriverProfile
  | createRideRequest _ => RideRequest
  | upsertOffer _ _ _ _ => RideOffer
  | acceptBatch _ => Trip
  | expireOffer _ => RideOffer
  | expireDriverOffers _ => Unit
  | cancelBatch _ => RideRequest
  | startBatch _ => Trip
  | completeBatch _ => Trip
  | getJob _ => Option Job
  | removeJob _ => Unit
  | addJob _ _ _ => Unit
  | takeJob _ => Option Job
  | completeJob _ => Unit
  | retryJob _ => Unit
  | getIdentity _ => Option DriverIdentity
  | findIdentity _ => Option DriverIdentity
  | setIdentity _ _ => Unit
  | evictIdentity _ => Unit
  | emit _ => Unit
  | consumeLocationUpdate _ => Bool
  | activeTripRider _ => Option Id
  | send _ _ => Unit
  | now => Millis
  | elapse _ => Unit

/-- Statements that leave the process, and so may be refused by an outage. -/
def external : Stmt → Bool
  | emit _ | consumeLocationUpdate _ | activeTripRider _ | send _ _ | now | elapse _ => false
  | takeJob _ | completeJob _ | retryJob _ => false
  | _ => true

/-- Statements that write the ride tables. -/
def writesTables : Stmt → Bool
  | createDriverProfile _ | setOnline _ _ | setLocation _ _ _ _ | createRideRequest _
  | upsertOffer _ _ _ _ | acceptBatch _ | expireOffer _ | expireDriverOffers _
  | cancelBatch _ | startBatch _ | completeBatch _ => true
  | _ => false

/-- Statements that write a driver profile's availability or position. -/
def updatesProfile : Stmt → Bool
  | setOnline _ _ | setLocation _ _ _ _ => true
  | _ => false

/-- Statements that add, remove, take or settle jobs. -/
def writesQueue : Stmt → Bool
  | .addJob _ _ _ | .removeJob _ | .takeJob _ | .completeJob _ | .retryJob _ => true
  | _ => false

/-- Statements that write the cache of identities. -/
def writesCache : Stmt → Bool
  | .setIdentity _ _ | .evictIdentity _ => true
  | _ => false

/-- Statements that the gateway handles in its own memory. -/
def writesGateway : Stmt → Bool
  | emit _ | consumeLocationUpdate _ | send _ _ => true
  | _ => false

def passesTime : Stmt → Bool
  | elapse _ => true
  | _ => false

end Stmt

abbrev rideSignature : Signature := ⟨Stmt, Stmt.Res⟩

/-- A call of a ride service. -/
abbrev RideCall (α : Type) := Call rideSignature ServiceError α

namespace Backend

/-- Lift a statement on the tables; a violation leaves the backend as it was. -/
def onTables {α : Type} (s : Backend)
    (f : RideTables → Except Violation (α × RideTables)) : Except ServiceError (α × Backend) :=
  match f s.tables with
  | .ok (a, tables) => .ok (a, { s with tables })
  | .error v => .error (.constraint v)

theorem onTables_ok {α : Type} {s s' : Backend} {a : α}
    (f : RideTables → Except Violation (α × RideTables)) (h : s.onTables f = .ok (a, s')) :
    f s.tables = .ok (a, s'.tables) ∧ s' = { s with tables := s'.tables } := by
  unfold onTables at h
  split at h
  · next a' tables hf =>
      cases h
      exact ⟨hf, rfl⟩
  · cases h

theorem onTables_of_ok {α : Type} {s : Backend} {tables : RideTables} {a : α}
    {f : RideTables → Except Violation (α × RideTables)} (h : f s.tables = .ok (a, tables)) :
    s.onTables f = .ok (a, { s with tables }) := by
  unfold onTables
  rw [h]

variable (cfg : Config)

/-- What each statement does to the backend and what it returns. -/
def exec : (o : Stmt) → Backend → Except ServiceError (o.Res × Backend)
  | .findDriverProfileByUser userId, s => .ok (s.tables.findDriverProfileByUser userId, s)
  | .findDriverProfile id, s => .ok (s.tables.findDriverProfile id, s)
  | .findRideRequest id, s => .ok (s.tables.findRideRequest id, s)
  | .findRideRequestWithOffers id, s => .ok (s.tables.findRideRequestWithOffers id, s)
  | .findOffer id, s => .ok (s.tables.findOffer id, s)
  | .findOfferWithRequest id, s => .ok (s.tables.findOfferWithRequest id, s)
  | .findOtherPendingOffers rideRequestId offerId, s =>
      .ok (s.tables.findOtherPendingOffers rideRequestId offerId, s)
  | .findTrip id, s => .ok (s.tables.findTrip id, s)
  | .findNearbyDrivers lat lng, s =>
      .ok (cfg.findNearbyDrivers s.tables.driverProfiles lat lng, s)
  | .createDriverProfile p, s => s.onTables fun db => db.createDriverProfile p
  | .setOnline userId isOnline, s => s.onTables fun db => db.setOnline userId isOnline
  | .setLocation userId lat lng now, s => s.onTables fun db => db.setLocation userId lat lng now
  | .createRideRequest r, s => s.onTables fun db => db.createRideRequest r
  | .upsertOffer rideRequestId driverId offeredFare uuid, s =>
      s.onTables fun db => db.upsertOffer rideRequestId driverId offeredFare uuid
  | .acceptBatch a, s => s.onTables fun db => db.acceptBatch a
  | .expireOffer offerId, s => s.onTables fun db => db.expireOffer offerId
  | .expireDriverOffers driverProfileId, s =>
      s.onTables fun db => db.expireDriverOffers driverProfileId
  | .cancelBatch c, s => s.onTables fun db => db.cancelBatch c
  | .startBatch u, s => s.onTables fun db => db.startBatch u
  | .completeBatch u, s => s.onTables fun db => db.completeBatch u
  | .getJob jobId, s => .ok (s.jobs.getJob jobId, s)
  | .removeJob jobId, s =>
      match s.jobs.remove jobId with
      | some jobs => .ok ((), { s with jobs })
      | none => .error .jobLocked
  | .addJob data delay jobId, s =>
      .ok ((), { s with jobs := s.jobs.add { jobId, data, dueAt := s.clock + delay } })
  | .takeJob jobId, s =>
      match s.jobs.due? jobId s.clock with
      | some j => .ok (some j, { s with jobs := s.jobs.activate jobId })
      | none => .ok (none, s)
  | .completeJob jobId, s => .ok ((), { s with jobs := s.jobs.complete jobId })
  | .retryJob jobId, s => .ok ((), { s with jobs := s.jobs.retry jobId s.clock })
  | .getIdentity userId, s => .ok (s.driverIdentities userId, s)
  | .findIdentity userId, s =>
      .ok ((s.tables.findDriverProfileByUser userId).map fun p => ⟨p.id, p.userId⟩, s)
  | .setIdentity userId identity, s =>
      .ok ((), { s with driverIdentities := Function.update s.driverIdentities userId identity })
  | .evictIdentity userId, s =>
      .ok ((), { s with driverIdentities := Function.update s.driverIdentities userId none })
  | .emit ev, s => .ok ((), { s with gateway := s.gateway.handle cfg.haversineMeters ev })
  | .consumeLocationUpdate userId, s =>
      let r := s.gateway.locationUpdateLimiter.consume userId s.clock
      .ok (r.1, { s with gateway := { s.gateway with locationUpdateLimiter := r.2 } })
  | .activeTripRider driverUserId, s => .ok (s.gateway.activeTripRiderByDriver driverUserId, s)
  | .send userId m, s => .ok ((), { s with gateway := s.gateway.send userId m })
  | .now, s => .ok (s.clock, s)
  | .elapse duration, s => .ok ((), { s with clock := s.clock + duration })

/-- A statement leaves every store alone that it is not for. -/
structure Frame (o : Stmt) (s s' : Backend) : Prop where
  tables : o.writesTables = false → s'.tables = s.tables
  jobs : o.writesQueue = false → s'.jobs = s.jobs
  identities : o.writesCache = false → s'.driverIdentities = s.driverIdentities
  gateway : o.writesGateway = false → s'.gateway = s.gateway
  clock : o.passesTime = false → s'.clock = s.clock

theorem exec_frame {cfg : Config} {o : Stmt} {s s' : Backend} {b : o.Res}
    (h : exec cfg o s = .ok (b, s')) : Frame o s s' := by
  cases o
  all_goals
    simp only [exec, onTables] at h
    first
    | cases h
    | split at h <;> cases h
  all_goals constructor <;> intro ho <;> first | rfl | cases ho

/-- Time only passes. -/
theorem exec_clock_le {cfg : Config} {o : Stmt} {s s' : Backend} {b : o.Res}
    (h : exec cfg o s = .ok (b, s')) : s.clock ≤ s'.clock := by
  by_cases ho : o.passesTime = false
  · exact Nat.le_of_eq ((exec_frame h).clock ho).symm
  · cases o with
    | elapse duration =>
        cases h
        exact Nat.le_add_right _ _
    | _ => exact absurd rfl ho

/-- What an executed statement did to the tables, by kind of statement. -/
inductive Wrote : Stmt → RideTables → RideTables → Prop where
  | nothing {o db} (ho : o.writesTables = false) : Wrote o db db
  | createDriverProfile {p db db'} (h : ProfileCreated p db db') :
      Wrote (.createDriverProfile p) db db'
  | updateDriverProfile {o f db db'} (ho : o.updatesProfile = true) (h : ProfileEffect f db db')
      (hf : ∀ p, (f p).id = p.id ∧ (f p).userId = p.userId ∧
        (f p).driverApplicationId = p.driverApplicationId) : Wrote o db db'
  | createRideRequest {r db db'} (h : RequestCreated r db db') :
      Wrote (.createRideRequest r) db db'
  | upsertOffer {rideRequestId driverId offeredFare uuid offer db db'}
      (h : UpsertEffect rideRequestId driverId offeredFare uuid db offer db') :
      Wrote (.upsertOffer rideRequestId driverId offeredFare uuid) db db'
  | acceptBatch {a t db db'} (h : Acceptance.Effect a db t db') : Wrote (.acceptBatch a) db db'
  | expireOffer {offerId db db'} (h : OfferEffect (expireOfferRow offerId) db db') :
      Wrote (.expireOffer offerId) db db'
  | expireDriverOffers {driverProfileId db db'}
      (h : OfferEffect (expireDriverOfferRow driverProfileId) db db') :
      Wrote (.expireDriverOffers driverProfileId) db db'
  | cancelBatch {c r db db'} (h : Cancellation.Effect c db r db') : Wrote (.cancelBatch c) db db'
  | startBatch {u t db db'} (h : TripUpdate.Effect u u.startTrip .inProgress db t db') :
      Wrote (.startBatch u) db db'
  | completeBatch {u t db db'} (h : TripUpdate.Effect u u.completeTrip .completed db t db') :
      Wrote (.completeBatch u) db db'

theorem exec_wrote {cfg : Config} {o : Stmt} {s s' : Backend} {b : o.Res}
    (h : exec cfg o s = .ok (b, s')) : Wrote o s.tables s'.tables := by
  by_cases ho : o.writesTables = true
  · cases o with
    | createDriverProfile p =>
        have ht := (onTables_ok (fun db => db.createDriverProfile p) h).1
        exact .createDriverProfile (RideTables.createDriverProfile_effect ht)
    | setOnline userId isOnline =>
        have ht := (onTables_ok (fun db => db.setOnline userId isOnline) h).1
        refine .updateDriverProfile rfl (RideTables.setOnline_effect ht).1 ?_
        intro p
        unfold setOnlineRow
        split <;> exact ⟨rfl, rfl, rfl⟩
    | setLocation userId lat lng now =>
        have ht := (onTables_ok (fun db => db.setLocation userId lat lng now) h).1
        refine .updateDriverProfile rfl (RideTables.setLocation_effect ht) ?_
        intro p
        unfold setLocationRow
        split <;> exact ⟨rfl, rfl, rfl⟩
    | createRideRequest r =>
        have ht := (onTables_ok (fun db => db.createRideRequest r) h).1
        exact .createRideRequest (RideTables.createRideRequest_effect ht).2
    | upsertOffer rideRequestId driverId offeredFare uuid =>
        have ht := (onTables_ok
          (fun db => db.upsertOffer rideRequestId driverId offeredFare uuid) h).1
        exact .upsertOffer (RideTables.upsertOffer_effect ht)
    | acceptBatch a =>
        have ht := (onTables_ok (fun db => db.acceptBatch a) h).1
        exact .acceptBatch (RideTables.acceptBatch_effect ht)
    | expireOffer offerId =>
        have ht := (onTables_ok (fun db => db.expireOffer offerId) h).1
        exact .expireOffer (RideTables.expireOffer_effect ht)
    | expireDriverOffers driverProfileId =>
        have ht := (onTables_ok (fun db => db.expireDriverOffers driverProfileId) h).1
        exact .expireDriverOffers (RideTables.expireDriverOffers_effect ht)
    | cancelBatch c =>
        have ht := (onTables_ok (fun db => db.cancelBatch c) h).1
        exact .cancelBatch (RideTables.cancelBatch_effect ht)
    | startBatch u =>
        have ht := (onTables_ok (fun db => db.startBatch u) h).1
        exact .startBatch (RideTables.startBatch_effect ht)
    | completeBatch u =>
        have ht := (onTables_ok (fun db => db.completeBatch u) h).1
        exact .completeBatch (RideTables.completeBatch_effect ht)
    | _ => cases ho
  · have ho : o.writesTables = false := Bool.eq_false_iff.mpr ho
    rw [(exec_frame h).tables ho]
    exact .nothing ho

end Backend

end Reedr
