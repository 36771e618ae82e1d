import Reedr.Library.Thread
import Reedr.Ride.Footprints

/-!
# Refusing a caller before writing anything

The services of the negotiation test their guards first: once a call has written
to the database, the queue or the gateway, it throws what a statement fails with
and nothing of its own.
-/

namespace Reedr
open Interleaving

variable {cfg : Config}

/-- The errors with which a service turns a caller away. -/
def ServiceError.refusal : ServiceError → Bool
  | .notFound _ | .forbidden _ | .badRequest _ => true
  | _ => false

/-- Statements that write the database, the queue or the gateway. -/
def Stmt.writes (o : Stmt) : Bool := o.writesTables || o.writesQueue || o.writesGateway

/-- The calls of the negotiation, and the jobs that expire its offers. -/
def Invocation.negotiates : Invocation → Bool
  | .create _ _ _ | .cancel _ _ _ | .submitOffer _ _ _ _ | .acceptOffer _ _ _ | .start _ _
  | .complete _ _ | .process _ | .runJob _ => true
  | _ => false

/-- A statement fails for a reason of its own, never with a refusal. -/
theorem not_refusal_of_mayFail {o : Stmt} {e : ServiceError}
    (h : (rideSystem cfg).MayFail o e) : e.refusal = false := by
  rcases h with ⟨s, h⟩ | ⟨-, rfl⟩
  · have h : Backend.exec cfg o s = .error e := h
    cases o
    all_goals
      simp only [Backend.exec, Backend.onTables] at h
      first
      | cases h
      | split at h <;> cases h
    all_goals rfl
  · rfl

variable (cfg)

/-- Once it has written something, the call turns nobody away. -/
abbrev RefusesFirst {α : Type} (written : Bool) (c : RideCall α) : Prop :=
  c.ThrowsAfter (rideSystem cfg) Stmt.writes (fun e => e.refusal = false) written

theorem perform_refuses (o : Stmt) : RefusesFirst cfg true (perform o) :=
  Call.ThrowsAfter.perform fun _ => not_refusal_of_mayFail

variable {cfg}

theorem RefusesFirst.perform_bind {α : Type} {written : Bool} {o : Stmt} {f : o.Res → RideCall α}
    (h : ∀ b, RefusesFirst cfg (written || o.writes) (f b)) :
    RefusesFirst cfg written (perform o >>= f) :=
  Call.ThrowsAfter.perform_bind h fun _ _ => not_refusal_of_mayFail

variable (cfg)

/-- What is thrown for a response is no refusal. -/
theorem respond_refuses {α : Type} (written : Bool) (r : Except String α) :
    RefusesFirst cfg written (respond r).void := by
  rw [respond, Call.void_eq]
  cases r with
  | error message => exact fun _ => rfl
  | ok a => trivial

theorem cancelScheduledExpiry_refuses (offerId : Id) :
    RefusesFirst cfg true (OffersService.cancelScheduledExpiry offerId) := by
  apply RefusesFirst.perform_bind
  intro job
  cases job with
  | none => trivial
  | some job => exact Call.ThrowsAfter.perform_recover fun _ => ()

theorem submitOffer_refuses (driverUserId rideRequestId : Id) (offeredFare : Fare) (uuid : Id) :
    RefusesFirst cfg false
      (OffersService.submitOffer cfg driverUserId rideRequestId offeredFare uuid).void := by
  simp only [OffersService.submitOffer, OffersService.scheduleExpiry, Call.void_eq, bind_assoc]
  refine RefusesFirst.perform_bind fun _ => Call.ThrowsAfter.required_bind (fun _ => ?_) nofun
  refine RefusesFirst.perform_bind fun _ => Call.ThrowsAfter.required_bind (fun _ => ?_) nofun
  refine Call.ThrowsAfter.ensure_bind ?_ nofun
  refine RefusesFirst.perform_bind fun _ => ?_
  apply Call.ThrowsAfter.bind (cancelScheduledExpiry_refuses cfg _)
  intro _
  apply Call.ThrowsAfter.bind (perform_refuses cfg _)
  intro _
  exact Call.ThrowsAfter.bind (perform_refuses cfg _) fun _ => trivial

theorem acceptOffer_refuses (riderId offerId uuid : Id) :
    RefusesFirst cfg false (OffersService.acceptOffer riderId offerId uuid).void := by
  simp only [OffersService.acceptOffer, Call.void_eq, bind_assoc]
  refine RefusesFirst.perform_bind fun _ => Call.ThrowsAfter.required_bind (fun _ => ?_) nofun
  refine Call.ThrowsAfter.ensure_bind (Call.ThrowsAfter.ensure_bind ?_ nofun) nofun
  refine RefusesFirst.perform_bind fun _ => RefusesFirst.perform_bind fun _ => ?_
  apply Call.ThrowsAfter.bind (Call.ThrowsAfter.all (cancelScheduledExpiry_refuses cfg))
  intro _
  exact Call.ThrowsAfter.bind (perform_refuses cfg _) fun _ => trivial

theorem cancel_refuses (id requester : Id) (reason : Option String) :
    RefusesFirst cfg false (RideRequestsService.cancel cfg id requester reason).void := by
  simp only [RideRequestsService.cancel, Call.void_eq, bind_assoc]
  refine RefusesFirst.perform_bind fun _ => Call.ThrowsAfter.required_bind (fun _ => ?_) nofun
  refine Call.ThrowsAfter.ensure_bind (Call.ThrowsAfter.ensure_bind ?_ nofun) nofun
  refine RefusesFirst.perform_bind fun _ => RefusesFirst.perform_bind fun _ => ?_
  exact Call.ThrowsAfter.bind (perform_refuses cfg _) fun _ =>
    respond_refuses cfg true _

private theorem findOwnedByDriver_refuses {α : Type} (tripId driverUserId : Id)
    {f : Trip → RideCall α} (hf : ∀ trip, RefusesFirst cfg false (f trip)) :
    RefusesFirst cfg false (TripsService.findOwnedByDriver tripId driverUserId >>= f) := by
  simp only [TripsService.findOwnedByDriver, bind_assoc]
  refine RefusesFirst.perform_bind fun _ => Call.ThrowsAfter.required_bind (fun trip => ?_) nofun
  exact Call.ThrowsAfter.ensure_bind (hf trip) nofun

theorem start_refuses (tripId driverUserId : Id) :
    RefusesFirst cfg false (TripsService.start cfg tripId driverUserId).void := by
  simp only [TripsService.start, Call.void_eq, bind_assoc]
  apply findOwnedByDriver_refuses
  intro trip
  refine Call.ThrowsAfter.ensure_bind ?_ nofun
  refine RefusesFirst.perform_bind fun _ => RefusesFirst.perform_bind fun _ => ?_
  exact Call.ThrowsAfter.bind (perform_refuses cfg _) fun _ =>
    respond_refuses cfg true _

theorem complete_refuses (tripId driverUserId : Id) :
    RefusesFirst cfg false (TripsService.complete cfg tripId driverUserId).void := by
  simp only [TripsService.complete, Call.void_eq, bind_assoc]
  apply findOwnedByDriver_refuses
  intro trip
  refine Call.ThrowsAfter.ensure_bind ?_ nofun
  refine RefusesFirst.perform_bind fun _ => RefusesFirst.perform_bind fun _ => ?_
  exact Call.ThrowsAfter.bind (perform_refuses cfg _) fun _ =>
    respond_refuses cfg true _

theorem expireIfStillPending_refuses (offerId : Id) :
    RefusesFirst cfg true (OffersService.expireIfStillPending offerId) := by
  apply RefusesFirst.perform_bind
  intro offer
  cases offer with
  | none => trivial
  | some offer =>
      dsimp only
      split
      · exact Call.ThrowsAfter.bind (perform_refuses cfg _) fun _ => trivial
      · trivial

theorem process_refuses (job : OfferExpiryJob) :
    RefusesFirst cfg true (OfferExpiryProcessor.process job) := by
  cases job with
  | expireOffer offerId =>
      apply Call.ThrowsAfter.bind (expireIfStillPending_refuses cfg offerId)
      intro result
      cases result with
      | none => trivial
      | some result => exact perform_refuses cfg _
  | expireDriverPendingOffers driverProfileId =>
      apply RefusesFirst.perform_bind
      intro driver
      cases driver with
      | none => trivial
      | some driver =>
          dsimp only
          split
          · trivial
          · exact perform_refuses cfg _

/-- Until a call of the negotiation refuses its caller it has written nothing. -/
theorem code_refuses (i : Invocation) (hi : i.negotiates = true) :
    RefusesFirst cfg false (i.code cfg) := by
  cases i with
  | create riderId dto uuid =>
      simp only [Invocation.code, RideRequestsService.create, Call.void_eq, bind_assoc]
      refine RefusesFirst.perform_bind fun _ => RefusesFirst.perform_bind fun _ => ?_
      exact Call.ThrowsAfter.bind (perform_refuses cfg _) fun _ => respond_refuses cfg true _
  | cancel id requester reason => exact cancel_refuses cfg id requester reason
  | submitOffer driverUserId rideRequestId offeredFare uuid =>
      exact submitOffer_refuses cfg driverUserId rideRequestId offeredFare uuid
  | acceptOffer riderId offerId uuid => exact acceptOffer_refuses cfg riderId offerId uuid
  | start tripId driverUserId => exact start_refuses cfg tripId driverUserId
  | complete tripId driverUserId => exact complete_refuses cfg tripId driverUserId
  | process job => exact (process_refuses cfg job).weaken
  | runJob jobId =>
      apply RefusesFirst.perform_bind
      intro job
      cases job with
      | none => trivial
      | some job =>
          apply Call.ThrowsAfter.weaken
          apply Call.ThrowsAfter.recover
          exact fun _ => perform_refuses cfg _
  | _ => exact nomatch hi

end Reedr
