import Reedr.Ride.Services

/-!
# Which statements a ride service may execute

For any property of statements: what the statements of a call need for every
one that the call may execute, whatever the replies, to have it.
-/

namespace Reedr
open Interleaving

variable {P : Stmt → Prop} {cfg : Config}

namespace OffersService

theorem cancelScheduledExpiry_uses (hget : ∀ jobId, P (.getJob jobId))
    (hremove : ∀ jobId, P (.removeJob jobId)) (offerId : Id) :
    (cancelScheduledExpiry offerId).Uses P := by
  apply Call.Uses.bind (Call.Uses.perform (hget _))
  intro job
  cases job with
  | none => trivial
  | some job => exact Call.Uses.recover (Call.Uses.perform (hremove _)) fun _ => trivial

theorem scheduleExpiry_uses (hget : ∀ jobId, P (.getJob jobId))
    (hremove : ∀ jobId, P (.removeJob jobId))
    (hadd : ∀ offerId, P (.addJob (.expireOffer offerId) cfg.offerExpiryMs (offerJobId offerId)))
    (offerId : Id) : (scheduleExpiry cfg offerId).Uses P :=
  Call.Uses.bind (cancelScheduledExpiry_uses hget hremove offerId) fun _ =>
    Call.Uses.perform (hadd offerId)

theorem submitOffer_uses (hprofile : ∀ userId, P (.findDriverProfileByUser userId))
    (hrequest : ∀ id, P (.findRideRequest id))
    (hupsert : ∀ r d fare uuid, P (.upsertOffer r d fare uuid))
    (hget : ∀ jobId, P (.getJob jobId)) (hremove : ∀ jobId, P (.removeJob jobId))
    (hadd : ∀ offerId, P (.addJob (.expireOffer offerId) cfg.offerExpiryMs (offerJobId offerId)))
    (hemit : ∀ offer riderId, P (.emit (.offerSubmitted offer riderId)))
    (driverUserId rideRequestId : Id) (offeredFare : Fare) (uuid : Id) :
    (submitOffer cfg driverUserId rideRequestId offeredFare uuid).Uses P :=
  Call.Uses.bind (Call.Uses.perform (hprofile _)) fun _ =>
    Call.Uses.bind (Call.Uses.required _ _) fun _ =>
      Call.Uses.bind (Call.Uses.perform (hrequest _)) fun _ =>
        Call.Uses.bind (Call.Uses.required _ _) fun _ =>
          Call.Uses.bind (Call.Uses.ensure _ _) fun _ =>
            Call.Uses.bind (Call.Uses.perform (hupsert _ _ _ _)) fun _ =>
              Call.Uses.bind (scheduleExpiry_uses hget hremove hadd _) fun _ =>
                Call.Uses.bind (Call.Uses.perform (hemit _ _)) fun _ => trivial

theorem acceptOffer_uses (hoffer : ∀ id, P (.findOfferWithRequest id))
    (hothers : ∀ r o, P (.findOtherPendingOffers r o)) (haccept : ∀ a, P (.acceptBatch a))
    (hget : ∀ jobId, P (.getJob jobId)) (hremove : ∀ jobId, P (.removeJob jobId))
    (hemit : ∀ r t o ds, P (.emit (.offerAccepted r t o ds))) (riderId offerId uuid : Id) :
    (acceptOffer riderId offerId uuid).Uses P :=
  Call.Uses.bind (Call.Uses.perform (hoffer _)) fun _ =>
    Call.Uses.bind (Call.Uses.required _ _) fun _ =>
      Call.Uses.bind (Call.Uses.ensure _ _) fun _ =>
        Call.Uses.bind (Call.Uses.ensure _ _) fun _ =>
          Call.Uses.bind (Call.Uses.perform (hothers _ _)) fun _ =>
            Call.Uses.bind (Call.Uses.perform (haccept _)) fun _ =>
              Call.Uses.bind (Call.Uses.all fun _ _ =>
                cancelScheduledExpiry_uses hget hremove _) fun _ =>
                  Call.Uses.bind (Call.Uses.perform (hemit _ _ _ _)) fun _ => trivial

theorem expireIfStillPending_uses (hfind : ∀ id, P (.findOffer id))
    (hexpire : ∀ id, P (.expireOffer id)) (offerId : Id) :
    (expireIfStillPending offerId).Uses P := by
  apply Call.Uses.bind (Call.Uses.perform (hfind _))
  intro offer
  cases offer with
  | none => trivial
  | some offer =>
      dsimp only
      split
      · exact Call.Uses.bind (Call.Uses.perform (hexpire _)) fun _ => trivial
      · trivial

theorem expireAllPendingOffersForDriver_uses (hfind : ∀ id, P (.findDriverProfile id))
    (hexpire : ∀ id, P (.expireDriverOffers id)) (driverProfileId : Id) :
    (expireAllPendingOffersForDriver driverProfileId).Uses P := by
  apply Call.Uses.bind (Call.Uses.perform (hfind _))
  intro driver
  cases driver with
  | none => trivial
  | some driver =>
      dsimp only
      split
      · trivial
      · exact Call.Uses.perform (hexpire _)

end OffersService

namespace OfferExpiryProcessor
open OffersService

theorem process_uses (hoffer : ∀ id, P (.findOffer id)) (hexpire : ∀ id, P (.expireOffer id))
    (hemit : ∀ r o d, P (.emit (.offerExpired r o d)))
    (hprofile : ∀ id, P (.findDriverProfile id)) (hexpires : ∀ id, P (.expireDriverOffers id))
    (job : OfferExpiryJob) : (process job).Uses P := by
  cases job with
  | expireOffer offerId =>
      apply Call.Uses.bind (expireIfStillPending_uses hoffer hexpire offerId)
      intro result
      cases result with
      | none => trivial
      | some result => exact Call.Uses.perform (hemit _ _ _)
  | expireDriverPendingOffers driverProfileId =>
      exact expireAllPendingOffersForDriver_uses hprofile hexpires driverProfileId

theorem runJob_uses (htake : ∀ jobId, P (.takeJob jobId))
    (hcomplete : ∀ jobId, P (.completeJob jobId)) (hretry : ∀ jobId, P (.retryJob jobId))
    (hprocess : ∀ job, (process job).Uses P) (jobId : String) : (runJob jobId).Uses P := by
  apply Call.Uses.bind (Call.Uses.perform (htake _))
  intro job
  cases job with
  | none => trivial
  | some job =>
      exact Call.Uses.recover (Call.Uses.bind (hprocess _) fun _ =>
        Call.Uses.perform (hcomplete _)) fun _ => Call.Uses.perform (hretry _)

end OfferExpiryProcessor

namespace RideRequestsService

theorem create_uses (hcreate : ∀ r, P (.createRideRequest r))
    (hfind : ∀ lat lng, P (.findNearbyDrivers lat lng))
    (hemit : ∀ r ds, P (.emit (.rideRequestCreated r ds)))
    (riderId : Id) (dto : CreateRideRequestDto) (uuid : Id) :
    (create cfg riderId dto uuid).Uses P :=
  Call.Uses.bind (Call.Uses.perform (hcreate _)) fun _ =>
    Call.Uses.bind (Call.Uses.perform (hfind _ _)) fun _ =>
      Call.Uses.bind (Call.Uses.perform (hemit _ _)) fun _ => Call.Uses.ofExcept _

theorem cancel_uses (hfind : ∀ id, P (.findRideRequestWithOffers id)) (hnow : P .now)
    (hcancel : ∀ c, P (.cancelBatch c)) (hemit : ∀ r ds, P (.emit (.rideRequestCancelled r ds)))
    (id requester : Id) (reason : Option String) : (cancel cfg id requester reason).Uses P :=
  Call.Uses.bind (Call.Uses.perform (hfind _)) fun _ =>
    Call.Uses.bind (Call.Uses.required _ _) fun _ =>
      Call.Uses.bind (Call.Uses.ensure _ _) fun _ =>
        Call.Uses.bind (Call.Uses.ensure _ _) fun _ =>
          Call.Uses.bind (Call.Uses.perform hnow) fun _ =>
            Call.Uses.bind (Call.Uses.perform (hcancel _)) fun _ =>
              Call.Uses.bind (Call.Uses.perform (hemit _ _)) fun _ => Call.Uses.ofExcept _

end RideRequestsService

namespace TripsService

theorem findOwnedByDriver_uses (hfind : ∀ id, P (.findTrip id)) (tripId driverUserId : Id) :
    (findOwnedByDriver tripId driverUserId).Uses P :=
  Call.Uses.bind (Call.Uses.perform (hfind _)) fun _ =>
    Call.Uses.bind (Call.Uses.required _ _) fun _ =>
      Call.Uses.bind (Call.Uses.ensure _ _) fun _ => trivial

theorem start_uses (hfind : ∀ id, P (.findTrip id)) (hnow : P .now)
    (hstart : ∀ u, P (.startBatch u)) (hemit : ∀ t, P (.emit (.tripStarted t)))
    (tripId driverUserId : Id) : (start cfg tripId driverUserId).Uses P :=
  Call.Uses.bind (findOwnedByDriver_uses hfind _ _) fun _ =>
    Call.Uses.bind (Call.Uses.ensure _ _) fun _ =>
      Call.Uses.bind (Call.Uses.perform hnow) fun _ =>
        Call.Uses.bind (Call.Uses.perform (hstart _)) fun _ =>
          Call.Uses.bind (Call.Uses.perform (hemit _)) fun _ => Call.Uses.ofExcept _

theorem complete_uses (hfind : ∀ id, P (.findTrip id)) (hnow : P .now)
    (hcomplete : ∀ u, P (.completeBatch u)) (hemit : ∀ t, P (.emit (.tripCompleted t)))
    (tripId driverUserId : Id) : (complete cfg tripId driverUserId).Uses P :=
  Call.Uses.bind (findOwnedByDriver_uses hfind _ _) fun _ =>
    Call.Uses.bind (Call.Uses.ensure _ _) fun _ =>
      Call.Uses.bind (Call.Uses.perform hnow) fun _ =>
        Call.Uses.bind (Call.Uses.perform (hcomplete _)) fun _ =>
          Call.Uses.bind (Call.Uses.perform (hemit _)) fun _ => Call.Uses.ofExcept _

end TripsService

namespace DriversService

theorem findIdentityByUserId_uses (hget : ∀ userId, P (.getIdentity userId))
    (hfind : ∀ userId, P (.findIdentity userId))
    (hset : ∀ userId identity, P (.setIdentity userId identity)) (userId : Id) :
    (findIdentityByUserId userId).Uses P := by
  apply Call.Uses.bind (Call.Uses.perform (hget _))
  intro identity
  cases identity with
  | some identity => trivial
  | none =>
      exact Call.Uses.bind (Call.Uses.perform (hfind _)) fun _ =>
        Call.Uses.bind (Call.Uses.perform (hset _ _)) fun _ => trivial

theorem setOnlineStatus_uses (hidentity : ∀ userId, (findIdentityByUserId userId).Uses P)
    (honline : ∀ userId isOnline, P (.setOnline userId isOnline))
    (hemit : ∀ d on lat lng, P (.emit (.driverOnlineStatusChanged d on lat lng)))
    (userId : Id) (isOnline : Bool) : (setOnlineStatus userId isOnline).Uses P :=
  Call.Uses.bind (hidentity userId) fun _ =>
    Call.Uses.bind (Call.Uses.required _ _) fun _ =>
      Call.Uses.bind (Call.Uses.perform (honline _ _)) fun _ =>
        Call.Uses.bind (Call.Uses.perform (hemit _ _ _ _)) fun _ => trivial

theorem updateLocation_uses {userId : Id} {lat lng : Coord}
    (hidentity : ∀ userId, (findIdentityByUserId userId).Uses P)
    (hnow : P .now) (hlocation : ∀ now, P (.setLocation userId lat lng now))
    (hemit : ∀ d lat lng, P (.emit (.driverLocationUpdated d lat lng))) :
    (updateLocation userId lat lng).Uses P :=
  Call.Uses.bind (hidentity userId) fun _ =>
    Call.Uses.bind (Call.Uses.required _ _) fun _ =>
      Call.Uses.bind (Call.Uses.perform hnow) fun _ =>
        Call.Uses.bind (Call.Uses.perform (hlocation _)) fun _ =>
          Call.Uses.bind (Call.Uses.perform (hemit _ _ _)) fun _ => trivial

theorem goOffline_uses (hidentity : ∀ userId, (findIdentityByUserId userId).Uses P)
    (honline : ∀ userId, P (.setOnline userId false))
    (hemit : ∀ d on lat lng, P (.emit (.driverOnlineStatusChanged d on lat lng)))
    (hadd : ∀ driverProfileId, P (.addJob (.expireDriverPendingOffers driverProfileId)
      cfg.offerExpiryMs (OffersService.driverJobId driverProfileId)))
    (userId : Id) : (goOffline cfg userId).Uses P := by
  apply Call.Uses.bind (hidentity userId)
  intro profile
  cases profile with
  | none => trivial
  | some profile =>
      exact Call.Uses.bind (Call.Uses.perform (honline _)) fun _ =>
        Call.Uses.bind (Call.Uses.perform (hemit _ _ _ _)) fun _ => Call.Uses.perform (hadd _)

end DriversService

namespace RealtimeGateway

theorem onLocationUpdate_uses {userId : Id} {lat lng : Coord}
    (hconsume : ∀ userId, P (.consumeLocationUpdate userId))
    (hupdate : (DriversService.updateLocation userId lat lng).Uses P)
    (hrider : ∀ userId, P (.activeTripRider userId)) (hsend : ∀ userId m, P (.send userId m)) :
    (onLocationUpdate userId lat lng).Uses P := by
  apply Call.Uses.bind (Call.Uses.perform (hconsume _))
  intro allowed
  cases allowed with
  | false => trivial
  | true =>
      refine Call.Uses.recover (Call.Uses.bind hupdate fun _ =>
        Call.Uses.bind (Call.Uses.perform (hrider _)) fun rider => ?_) fun _ => trivial
      cases rider with
      | none => trivial
      | some riderId => exact Call.Uses.perform (hsend _ _)

end RealtimeGateway

end Reedr
