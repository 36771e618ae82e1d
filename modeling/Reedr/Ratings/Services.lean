import Mathlib.Algebra.Ring.Rat
import Reedr.Library.Embedding
import Reedr.Onboarding.Effects
import Reedr.Onboarding.Services

/-!
# Ratings

`RatingsService.rateTrip` and `UsersService.recalculateRating`, cut at their
statements, next to the ride and the onboarding services, whose trips and users
they are about.

## Implementation notes

Averages are exact. The `rating` column is kept apart from the other columns of
the users, which only the onboarding services read; a user without a row has no
rating to update.
-/

namespace Reedr
open Relational Interleaving

structure Rating where
  id : Id
  tripId : Id
  fromUserId : Id
  toUserId : Id
  score : Int
  comment : Option String := none
  deriving DecidableEq, Repr

inductive RatingKey where
  | id (id : Id)
  | tripIdFromUserIdToUserId (tripId fromUserId toUserId : Id)
  deriving DecidableEq

instance : Keyed Rating where
  Key := RatingKey
  decEq := inferInstance
  keys r := [.id r.id, .tripIdFromUserIdToUserId r.tripId r.fromUserId r.toUserId]

/-- A user rates a counterpart on a trip at most once. -/
theorem Rating.eq_of_parties {t : Table Rating} {r s : Rating} (hr : r ∈ t) (hs : s ∈ t)
    (htrip : r.tripId = s.tripId) (hfrom : r.fromUserId = s.fromUserId)
    (hto : r.toUserId = s.toUserId) : r = s :=
  Table.eq_of_key (RatingKey.tripIdFromUserIdToUserId r.tripId r.fromUserId r.toUserId) hr hs
    (by simp [Keyed.keys]) (by simp [Keyed.keys, htrip, hfrom, hto])

/-- `_avg` over the scores; there is none without rows. -/
def averageScore (ratings : List Rating) : Option Rat :=
  if ratings = [] then none
  else some ((ratings.map fun r => (r.score : Rat)).sum / ratings.length)

structure RateTripDto where
  score : Int
  comment : Option String
  deriving DecidableEq, Repr

/-- The registry with the ratings and the `rating` column of the users. -/
structure RatedRegistry where
  registry : Registry
  ratings : Table Rating
  userRatings : Id → Rat

/-- Nobody has been rated yet, and every user has the default rating. -/
def RatedRegistry.unrated (registry : Registry) : RatedRegistry where
  registry := registry
  ratings := .empty
  userRatings _ := 5

/-- The rows that rate a user. -/
def RatedRegistry.ratingsOf (s : RatedRegistry) (userId : Id) : List Rating :=
  s.ratings.findMany fun r => r.toUserId = userId

inductive RatingStmt where
  | onboarding (o : OnboardingStmt)
  | createRating (r : Rating)
  | aggregateRatings (toUserId : Id)
  | updateUserRating (userId : Id) (rating : Rat)

namespace RatingStmt

abbrev Res : RatingStmt → Type
  | onboarding o => o.Res
  | createRating _ => Rating
  | aggregateRatings _ => Option Rat
  | updateUserRating _ _ => Unit

def external : RatingStmt → Bool
  | onboarding o => o.external
  | _ => true

end RatingStmt

abbrev ratingSignature : Signature := ⟨RatingStmt, RatingStmt.Res⟩

/-- A call of one of the services. -/
abbrev RatingCall (α : Type) := Call ratingSignature ServiceError α

/-- Execute one statement of the rating services. -/
abbrev query (o : RatingStmt) : RatingCall o.Res :=
  Call.perform (σ := ratingSignature) o

/-- Onboarding statements as statements next to the ratings. -/
def onboardingInRatings : Signature.Embedding onboardingSignature ratingSignature where
  op := .onboarding
  res _ r := r

def rideInRatings : Signature.Embedding rideSignature ratingSignature where
  op o := .onboarding (.ride o)
  res _ r := r

namespace RatedRegistry

/-- What each statement does and what it returns. -/
def exec (cfg : Config) :
    (o : RatingStmt) → RatedRegistry → Except ServiceError (o.Res × RatedRegistry)
  | .onboarding o, s =>
      match Registry.exec cfg o s.registry with
      | .ok (b, registry) => .ok (b, { s with registry })
      | .error e => .error e
  | .createRating r, s =>
      match s.ratings.create r with
      | .ok ratings => .ok (r, { s with ratings })
      | .error v => .error (.constraint v)
  | .aggregateRatings toUserId, s => .ok (averageScore (s.ratingsOf toUserId), s)
  | .updateUserRating userId rating, s =>
      if ∃ u ∈ s.registry.users, u.id = userId then
        .ok ((), { s with userRatings := Function.update s.userRatings userId rating })
      else .error (.constraint .recordNotFound)

end RatedRegistry

namespace UsersService

/-- The average of all ratings the user has received, read and written back. -/
def recalculateRating (userId : Id) : RatingCall Unit := do
  let average ← query (.aggregateRatings userId)
  query (.updateUserRating userId (average.getD 5))

end UsersService

namespace RatingsService

/-- Whom a participant of the trip rates. -/
def counterpart (trip : Trip) (fromUserId : Id) : Option Id :=
  if fromUserId = trip.riderId then some trip.driverId
  else if fromUserId = trip.driverId then some trip.riderId
  else none

def rateTrip (tripId fromUserId : Id) (dto : RateTripDto) (uuid : Id) : RatingCall Rating := do
  let trip ← Call.required (← query (.onboarding (.ride (.findTrip tripId))))
    (.notFound "Trip not found")
  Call.ensure (trip.status = .completed)
    (.forbidden "Trip must be completed before it can be rated")
  let toUserId ← Call.required (counterpart trip fromUserId)
    (.forbidden "You were not a participant on this trip")
  Call.recover
    (do
      let rating ← query (.createRating
        { id := uuid, tripId, fromUserId, toUserId, score := dto.score, comment := dto.comment })
      UsersService.recalculateRating toUserId
      return rating)
    fun e =>
      if e = .constraint .unique then .fail (.conflict "You have already rated this trip")
      else .fail e

end RatingsService

/-- Everything that can be asked of the services. -/
inductive RatingInvocation where
  | onboarding (i : OnboardingInvocation)
  | ride (i : Invocation)
  | rateTrip (tripId fromUserId : Id) (dto : RateTripDto) (uuid : Id)

/-- The call behind each invocation. -/
def RatingInvocation.code (cfg : Config) : RatingInvocation → RatingCall Unit
  | .onboarding i => (i.code cfg).embed onboardingInRatings
  | .ride i => (i.code cfg).embed rideInRatings
  | .rateTrip tripId fromUserId dto uuid =>
      (RatingsService.rateTrip tripId fromUserId dto uuid).void

/-- The services over a database, a queue, a cache and a storage that may be out
of reach. -/
def ratingSystem (cfg : Config) :
    System ratingSignature ServiceError RatedRegistry RatingInvocation where
  code := RatingInvocation.code cfg
  exec := RatedRegistry.exec cfg
  external := RatingStmt.external
  outage := .outage

abbrev RatingWorld := World ratingSignature RatedRegistry RatingInvocation
abbrev RatingPool := Pool ratingSignature ServiceError RatedRegistry RatingInvocation
abbrev RatingMove := Move RatingInvocation

/-- No call yet, no rating, and users who have done nothing but sign up. -/
def ratingPool (fresh : FreshUsers) : RatingPool :=
  Pool.init (.unrated (onboardingPool fresh).world.shared)

theorem onboardingInRatings_lifts (cfg : Config) :
    onboardingInRatings.Lifts (onboardingSystem cfg) (ratingSystem cfg)
      RatedRegistry.registry where
  ok {o s b s'} h := by
    simp only [ratingSystem, onboardingInRatings, RatedRegistry.exec] at h
    split at h
    · next hx =>
        cases h
        exact hx
    · cases h
  error {o s e} h := by
    simp only [ratingSystem, onboardingInRatings, RatedRegistry.exec] at h
    split at h
    · cases h
    · next hx =>
        cases h
        exact hx
  external h := h
  outage := rfl

theorem rideStatements_lifts (cfg : Config) :
    rideStatements.Lifts (rideSystem cfg) (onboardingSystem cfg) Registry.ride where
  ok {o s b s'} h := by
    simp only [onboardingSystem, rideStatements, Registry.exec] at h
    split at h
    · next hx =>
        cases h
        exact hx
    · cases h
  error {o s e} h := by
    simp only [onboardingSystem, rideStatements, Registry.exec] at h
    split at h
    · cases h
    · next hx =>
        cases h
        exact hx
  external h := h
  outage := rfl

theorem rideInRatings_lifts (cfg : Config) :
    rideInRatings.Lifts (rideSystem cfg) (ratingSystem cfg) fun s => s.registry.ride where
  ok h := (rideStatements_lifts cfg).ok ((onboardingInRatings_lifts cfg).ok h)
  error h := (rideStatements_lifts cfg).error ((onboardingInRatings_lifts cfg).error h)
  external h := h
  outage := rfl

namespace RatedRegistry

/-- What an executed statement did, by kind of statement. -/
inductive Wrote (cfg : Config) : RatingStmt → RatedRegistry → RatedRegistry → Prop where
  | onboarding {o b s registry} (h : Registry.exec cfg o s.registry = .ok (b, registry)) :
      Wrote cfg (.onboarding o) s { s with registry }
  | createRating {r s ratings} (h : s.ratings.create r = .ok ratings) :
      Wrote cfg (.createRating r) s { s with ratings }
  | aggregateRatings {toUserId s} : Wrote cfg (.aggregateRatings toUserId) s s
  | updateUserRating {userId rating s} (h : ∃ u ∈ s.registry.users, u.id = userId) :
      Wrote cfg (.updateUserRating userId rating) s
        { s with userRatings := Function.update s.userRatings userId rating }

theorem exec_wrote {cfg : Config} {o : RatingStmt} {s s' : RatedRegistry} {b : o.Res}
    (h : exec cfg o s = .ok (b, s')) : Wrote cfg o s s' := by
  cases o with
  | onboarding o =>
      simp only [exec] at h
      split at h
      · next hx =>
          cases h
          exact .onboarding hx
      · cases h
  | createRating r =>
      simp only [exec] at h
      split at h
      · next hx =>
          cases h
          exact .createRating hx
      · cases h
  | aggregateRatings toUserId =>
      cases h
      exact .aggregateRatings
  | updateUserRating userId rating =>
      simp only [exec] at h
      split at h
      · next hu =>
          cases h
          exact .updateUserRating hu
      · cases h

end RatedRegistry

end Reedr
