import Reedr.Onboarding.Submission
import Reedr.Ratings.Services
import Reedr.Ride.Consistency

/-!
# Who rates whom

A rating goes from one participant of a completed trip to the other. Which of
them is the other one is found by an if/else chain over the two columns of the
trip. Nothing on the way to a trip compares the rider with the driver: a user
with a driver profile may accept their own offer on their own request, and the
chain then has them rate themselves.
-/

namespace Reedr
open Relational Interleaving

/-- The ride tables below the ratings. -/
abbrev RatedRegistry.tables (s : RatedRegistry) : RideTables := s.registry.ride.tables

/-- The two users of a trip, one way or the other. -/
def Trip.Between (t : Trip) (fromUserId toUserId : Id) : Prop :=
  fromUserId = t.riderId ∧ toUserId = t.driverId ∨ fromUserId = t.driverId ∧ toUserId = t.riderId

instance (t : Trip) (fromUserId toUserId : Id) : Decidable (t.Between fromUserId toUserId) :=
  inferInstanceAs (Decidable (_ ∨ _))

/-- Every trip has two participants, and every rating goes from one participant
of a completed trip to the other one, at most one from each. -/
structure RatedRegistry.FairlyRated (s : RatedRegistry) : Prop where
  parties : ∀ t ∈ s.tables.trips, t.driverId ≠ t.riderId
  rating : ∀ r ∈ s.ratings, ∃ t ∈ s.tables.trips, t.id = r.tripId ∧ t.status = .completed ∧
    t.Between r.fromUserId r.toUserId
  other : ∀ r ∈ s.ratings, r.fromUserId ≠ r.toUserId
  once : ∀ r ∈ s.ratings, ∀ q ∈ s.ratings, r.tripId = q.tripId → r.fromUserId = q.fromUserId →
    r = q

/-- An offer is accepted by somebody other than its driver. -/
def AcceptsOther (_ : RatingWorld) (_ : RatingInvocation) : RatingStmt → Prop
  | .onboarding (.ride (.acceptBatch a)) => a.driverUserId ≠ a.riderId
  | _ => True

/-- What is known about a statement when a call that runs alone issues it. -/
def IssuedAlone (w : RatingWorld) (_ : RatingInvocation) : RatingStmt → Prop
  | .onboarding (.ride o) =>
      ∃ j, Issued (fun _ => True) SameTables (.init w.shared.registry.ride) j o
  | .createRating r => ∃ t ∈ w.shared.tables.trips, t.id = r.tripId ∧ t.status = .completed ∧
      RatingsService.counterpart t r.fromUserId = some r.toUserId
  | _ => True

/-- The ride tables are the same. -/
def SameRides (w w' : RatingWorld) : Prop := w'.shared.tables = w.shared.tables

theorem sameRides_refl (w : RatingWorld) : SameRides w w := rfl

theorem RatingsService.counterpart_between {t : Trip} {fromUserId toUserId : Id}
    (h : counterpart t fromUserId = some toUserId) : t.Between fromUserId toUserId := by
  unfold counterpart at h
  split at h
  · next hrider =>
      cases h
      exact Or.inl ⟨hrider, rfl⟩
  · split at h
    · next hdriver =>
        cases h
        exact Or.inr ⟨hdriver, rfl⟩
    · cases h

namespace RatedRegistry.FairlyRated
variable {s s' : RatedRegistry}

/-- With two participants on every trip, the rest follows. -/
theorem of_ratings (hparties : ∀ t ∈ s.tables.trips, t.driverId ≠ t.riderId)
    (hrating : ∀ r ∈ s.ratings, ∃ t ∈ s.tables.trips, t.id = r.tripId ∧ t.status = .completed ∧
      t.Between r.fromUserId r.toUserId) : s.FairlyRated where
  parties := hparties
  rating := hrating
  other r hr hsame := by
    obtain ⟨t, ht, -, -, hbetween⟩ := hrating r hr
    rcases hbetween with ⟨hfrom, hto⟩ | ⟨hfrom, hto⟩
    · exact hparties t ht (by rw [← hto, ← hsame, hfrom])
    · exact hparties t ht (by rw [← hfrom, hsame, hto])
  once r hr q hq htrip hfrom := by
    obtain ⟨t, ht, hid, -, hr'⟩ := hrating r hr
    obtain ⟨u, hu, huid, -, hq'⟩ := hrating q hq
    obtain rfl : t = u := Trip.eq_of_id ht hu (hid.trans (htrip.trans huid.symm))
    apply Rating.eq_of_parties hr hq htrip hfrom
    have hne := hparties t ht
    rcases hr' with ⟨hrf, hrt⟩ | ⟨hrf, hrt⟩
    · rcases hq' with ⟨hqf, hqt⟩ | ⟨hqf, hqt⟩
      · exact hrt.trans hqt.symm
      · exact absurd (hqf.symm.trans (hfrom.symm.trans hrf)) hne
    · rcases hq' with ⟨hqf, hqt⟩ | ⟨hqf, hqt⟩
      · exact absurd (hrf.symm.trans (hfrom.trans hqf)) hne
      · exact hrt.trans hqt.symm

/-- Trips that keep their terms, and stay completed, keep their ratings. -/
theorem of_trips (h : s.FairlyRated) (hratings : s'.ratings = s.ratings)
    (hparties : ∀ t ∈ s'.tables.trips, t.driverId ≠ t.riderId)
    (hkept : ∀ t ∈ s.tables.trips, t.status = .completed →
      ∃ t' ∈ s'.tables.trips, t'.terms = t.terms ∧ t'.status = .completed) : s'.FairlyRated := by
  apply of_ratings hparties
  intro r hr
  obtain ⟨t, ht, hid, hst, hbetween⟩ := h.rating r (hratings ▸ hr)
  obtain ⟨t', ht', hterms, hst'⟩ := hkept t ht hst
  obtain ⟨hid', -, hdriver, hrider, -⟩ := Trip.terms_eq.mp hterms
  refine ⟨t', ht', hid'.trans hid, hst', ?_⟩
  rwa [Trip.Between, hdriver, hrider]

end RatedRegistry.FairlyRated

section RideStatements
variable {cfg : Config} {w : RideWorld} {j : Invocation} {o : Stmt} {b : o.Res} {s : Backend}

/-- In whole calls, a completed trip stays completed. -/
theorem completed_kept {I : RideWorld → Prop} (hc : (tablesOf w).Coherent)
    (hJ : Issued I SameTables w j o) (hx : Backend.exec cfg o w.shared = .ok (b, s)) :
    ∀ t ∈ (tablesOf w).trips, t.status = .completed →
      ∃ t' ∈ s.tables.trips, t'.terms = t.terms ∧ t'.status = .completed := by
  intro t ht hst
  have same (h : s.tables.trips = (tablesOf w).trips) :
      ∃ t' ∈ s.tables.trips, t'.terms = t.terms ∧ t'.status = .completed :=
    ⟨t, h ▸ ht, rfl, hst⟩
  have hwrote := Backend.exec_wrote hx
  generalize htb : s.tables = db' at hwrote same
  cases hwrote with
  | nothing ho => exact ⟨t, ht, rfl, hst⟩
  | createDriverProfile he => exact same he.trips
  | updateDriverProfile ho he hf => exact same he.trips
  | createRideRequest he => exact same he.trips
  | upsertOffer he => exact same he.trips
  | acceptBatch he => exact ⟨t, he.trips.mem_old ht, rfl, hst⟩
  | expireOffer he => exact same he.trips
  | expireDriverOffers he => exact same he.trips
  | @cancelBatch c _ _ _ he =>
      refine ⟨c.onTrip t, he.trips.mem ht, c.onTrip_terms t, ?_⟩
      rw [Cancellation.onTrip, if_neg]
      · exact hst
      · -- The request of a completed trip is completed, and no longer to be cancelled.
        intro hid
        have hread : CancelRead c j (tablesOf w) := Seen.now hJ
        obtain ⟨u, hu, huid, hureq⟩ := hread.trip t.id hid
        obtain rfl : u = t := Trip.eq_of_id hu ht huid
        obtain ⟨r, hr, hrid, hrst, -⟩ := hread.request
        obtain ⟨r', hr', hrid', -, hrst'⟩ := hc.trip_request u ht
        obtain rfl : r' = r := RideRequest.eq_of_id hr' hr (by rw [hrid', hureq, hrid])
        rw [hrst', hst] at hrst
        rcases hrst with hrst | hrst <;> cases hrst
  | @startBatch u _ _ _ he =>
      refine ⟨u.startTrip t, he.trips.mem ht, u.startTrip_terms t, ?_⟩
      rw [u.startTrip_status, if_neg]
      · exact hst
      · intro hid
        obtain ⟨x, hx, hxid, -, hxst, -⟩ := Seen.now hJ
        obtain rfl : t = x := Trip.eq_of_id ht hx (hid.trans hxid.symm)
        cases hst.symm.trans hxst
  | @completeBatch u _ _ _ he =>
      refine ⟨u.completeTrip t, he.trips.mem ht, u.completeTrip_terms t, ?_⟩
      rw [u.completeTrip_status]
      split
      · rfl
      · exact hst

/-- Trips come from acceptances, and keep their terms. -/
theorem trip_origin (hx : Backend.exec cfg o w.shared = .ok (b, s)) :
    ∀ t' ∈ s.tables.trips, (∃ t ∈ (tablesOf w).trips, t.terms = t'.terms) ∨
      ∃ a, o = .acceptBatch a ∧ t' = a.trip := by
  intro t' ht'
  have hwrote := Backend.exec_wrote hx
  generalize htb : s.tables = db' at hwrote ht'
  have same (h : db'.trips = (tablesOf w).trips) :
      (∃ t ∈ (tablesOf w).trips, t.terms = t'.terms) ∨ ∃ a, o = .acceptBatch a ∧ t' = a.trip :=
    Or.inl ⟨t', h ▸ ht', rfl⟩
  have rewritten {f : Trip → Trip} (h : (tablesOf w).trips.Rewrites f db'.trips)
      (hf : ∀ t, (f t).terms = t.terms) :
      (∃ t ∈ (tablesOf w).trips, t.terms = t'.terms) ∨
        ∃ a, o = .acceptBatch a ∧ t' = a.trip := by
    obtain ⟨t, ht, rfl⟩ := (h t').mp ht'
    exact Or.inl ⟨t, ht, (hf t).symm⟩
  cases hwrote with
  | nothing ho => exact same rfl
  | createDriverProfile he => exact same he.trips
  | updateDriverProfile ho he hf => exact same he.trips
  | createRideRequest he => exact same he.trips
  | upsertOffer he => exact same he.trips
  | @acceptBatch a _ _ _ he =>
      rcases (he.trips t').mp ht' with ht | rfl
      · exact Or.inl ⟨t', ht, rfl⟩
      · exact Or.inr ⟨a, rfl, rfl⟩
  | expireOffer he => exact same he.trips
  | expireDriverOffers he => exact same he.trips
  | @cancelBatch c _ _ _ he => exact rewritten he.trips c.onTrip_terms
  | @startBatch u _ _ _ he => exact rewritten he.trips u.startTrip_terms
  | @completeBatch u _ _ _ he => exact rewritten he.trips u.completeTrip_terms

end RideStatements

section Commit
variable {cfg : Config} {w : RatingWorld} {n : Nat} {i : RatingInvocation} {o : RatingStmt}
  {b : o.Res} {s : RatedRegistry}

/-- Every statement of a call that runs alone keeps the ride tables coherent. -/
theorem rated_coherent_commit (h : w.shared.tables.Coherent) (hJ : IssuedAlone w i o)
    (hx : RatedRegistry.exec cfg o w.shared = .ok (b, s)) : s.tables.Coherent := by
  have hwrote := RatedRegistry.exec_wrote hx
  generalize hsh : w.shared = s₀ at hwrote h
  cases hwrote with
  | @onboarding o b _ registry hr =>
      by_cases hride : ∃ r, o = .ride r
      · obtain ⟨r, rfl⟩ := hride
        obtain ⟨j, hj⟩ := hJ
        rw [hsh] at hj
        exact coherent_commit h hj ((rideStatements_lifts cfg).ok hr)
      · rcases Registry.exec_rideTables hr fun r hor => hride ⟨r, hor⟩ with hsame | ⟨p, hp⟩
        · rwa [RatedRegistry.tables, hsame]
        · exact h.profiles hp.profiles.persists hp.requests hp.offers hp.trips
  | createRating hc => exact h
  | aggregateRatings => exact h
  | updateUserRating hu => exact h

/-- A ride statement keeps the ratings fair exactly when it accepts no offer of
the accepting rider's own. -/
private theorem ride_fairlyRated_iff {o : Stmt} {s s' : RatedRegistry} {ride : Backend}
    {b : o.Res} {j : Invocation} (hc : s.tables.Coherent) (h : s.FairlyRated)
    (hJ : Issued (fun _ => True) SameTables (.init s.registry.ride) j o)
    (hx : Backend.exec cfg o s.registry.ride = .ok (b, ride)) (htables : s'.tables = ride.tables)
    (hratings : s'.ratings = s.ratings) :
    s'.FairlyRated ↔ AcceptsOther w i (.onboarding (.ride o)) := by
  constructor
  · intro h'
    cases o with
    | acceptBatch a =>
        have hwrote := Backend.exec_wrote hx
        generalize hdb : ride.tables = db at hwrote htables
        cases hwrote with
        | nothing ho => exact nomatch ho
        | updateDriverProfile ho => exact nomatch ho
        | acceptBatch he => exact h'.parties a.trip (htables ▸ he.trips.mem_new)
    | _ => trivial
  · intro hQ
    apply h.of_trips hratings
    · intro t' ht'
      have horigin := trip_origin (w := .init s.registry.ride) hx t' (htables ▸ ht')
      rcases horigin with ⟨t, ht, hterms⟩ | ⟨a, rfl, rfl⟩
      · obtain ⟨-, -, hdriver, hrider, -⟩ := Trip.terms_eq.mp hterms
        rw [← hdriver, ← hrider]
        exact h.parties t ht
      · exact hQ
    · rw [htables]
      exact completed_kept hc hJ hx

/-- So does every statement of a call that runs alone. -/
theorem fairlyRated_commit_iff (hc : w.shared.tables.Coherent) (hJ : IssuedAlone w i o)
    (h : w.shared.FairlyRated) (hx : RatedRegistry.exec cfg o w.shared = .ok (b, s)) :
    s.FairlyRated ↔ AcceptsOther w i o := by
  have hwrote := RatedRegistry.exec_wrote hx
  generalize hsh : w.shared = s₀ at hwrote h hc
  cases hwrote with
  | @onboarding o b _ registry hr =>
      by_cases hride : ∃ r, o = .ride r
      · obtain ⟨r, rfl⟩ := hride
        obtain ⟨j, hj⟩ := hJ
        rw [hsh] at hj
        exact ride_fairlyRated_iff hc h hj ((rideStatements_lifts cfg).ok hr) rfl rfl
      · have htrips : registry.ride.tables.trips = s₀.tables.trips := by
          rcases Registry.exec_rideTables hr fun r hor => hride ⟨r, hor⟩ with hsame | ⟨p, hp⟩
          · rw [hsame]
          · exact hp.trips
        refine iff_of_true (h.of_trips rfl ?_ ?_) ?_
        · intro t ht
          exact h.parties t (htrips ▸ ht)
        · intro t ht hst
          exact ⟨t, htrips ▸ ht, rfl, hst⟩
        · cases o with
          | ride r => exact absurd ⟨r, rfl⟩ hride
          | _ => trivial
  | @createRating r _ ratings hcreate =>
      refine iff_of_true (.of_ratings h.parties fun q hq => ?_) trivial
      rcases (Table.mem_create hcreate q).mp hq with hq | rfl
      · exact h.rating q hq
      · obtain ⟨t, ht, hid, hst, hto⟩ := hJ
        exact ⟨t, hsh ▸ ht, hid, hst, RatingsService.counterpart_between hto⟩
  | aggregateRatings => exact iff_of_true h trivial
  | updateUserRating hu => exact iff_of_true ⟨h.parties, h.rating, h.other, h.once⟩ trivial

end Commit

section Calls
variable {cfg : Config} {i : RatingInvocation} {w : RatingWorld}

/-- Ride statements that the onboarding services issue need no facts. -/
def OnboardingStmt.ridesFreely : OnboardingStmt → Bool
  | .ride o => o.unconditional
  | _ => true

theorem OnboardingStmt.ridesFreely_of_routine {o : OnboardingStmt} (h : o.routine = true) :
    o.ridesFreely = true := by
  cases o with
  | ride o =>
      cases o with
      | createRideRequest | upsertOffer | acceptBatch | expireOffer | expireDriverOffers
      | cancelBatch | startBatch | completeBatch => exact nomatch h
      | _ => rfl
  | _ => rfl

open DriverApplicationService in
theorem OnboardingInvocation.code_ridesFreely (i : OnboardingInvocation) :
    (i.code cfg).Uses fun o : OnboardingStmt => o.ridesFreely = true := by
  by_cases hreview : ∃ a d r u, i = .review a d r u
  · obtain ⟨applicationId, decision, rejectionReason, uuid, rfl⟩ := hreview
    exact Call.Uses.void (review_uses (P := fun o => o.ridesFreely = true) (fun _ => rfl) rfl
      (fun _ _ _ => rfl) (fun _ _ _ _ => rfl) applicationId decision rejectionReason uuid)
  · refine Call.Uses.mono ?_ fun _ => OnboardingStmt.ridesFreely_of_routine
    exact i.code_routine fun a d r u h => hreview ⟨a, d, r, u, h⟩

theorem rateTrip_issuedAlone (tripId fromUserId : Id) (dto : RateTripDto) (uuid : Id) :
    Justified (ratingSystem cfg) (fun _ => True) SameRides IssuedAlone i
      (RatingsService.rateTrip tripId fromUserId dto uuid) w := by
  apply Justified.perform_bind
  intro w₁ _ _
  refine ⟨⟨.elapse 0, trivial⟩, ?_⟩
  rintro trip s ⟨⟩ n₁
  apply Justified.required_bind
  intro t hte
  obtain ⟨ht, rfl⟩ := RideTables.findTrip_some hte
  apply Justified.ensure_bind
  intro hst
  apply Justified.required_bind
  intro toUserId hto
  refine Justified.recover ?_ fun e w' => ?_
  · apply Justified.perform_bind
    intro w₂ _ hw₂
    refine ⟨⟨t, ?_, rfl, hst, hto⟩, fun _ _ _ _ => ?_⟩
    · have hsame : w₂.shared.tables = w₁.shared.tables := hw₂
      rw [hsame]
      exact ht
    · refine Justified.of_uses (P := fun o : RatingStmt => o = .aggregateRatings toUserId ∨
        ∃ rating, o = .updateUserRating toUserId rating) ?_ ?_
      · rintro w' o (rfl | ⟨rating, rfl⟩) <;> trivial
      · refine Call.Uses.bind (Call.Uses.bind (Call.Uses.perform (Or.inl rfl)) fun _ => ?_)
          fun _ => trivial
        exact Call.Uses.perform (Or.inr ⟨_, rfl⟩)
  · split <;> trivial

theorem rated_issuedAlone (i : RatingInvocation) (w : RatingWorld) :
    Justified (ratingSystem cfg) (fun _ => True) SameRides IssuedAlone i (i.code cfg) w := by
  cases i with
  | onboarding i =>
      refine Justified.of_uses (P := fun o : RatingStmt =>
        ∃ o' : OnboardingStmt, o = .onboarding o' ∧ o'.ridesFreely = true) ?_ ?_
      · rintro w' o ⟨o', rfl, ho⟩
        cases o' with
        | ride o => exact ⟨.elapse 0, Issued.of_unconditional ho⟩
        | _ => trivial
      · exact Call.Uses.embed (fun o ho => ⟨o, rfl, ho⟩) i.code_ridesFreely
  | ride j =>
      refine Justified.embed (rideInRatings_lifts cfg) (fun _ _ => trivial) ?_ ?_
        (code_issued (I := fun _ => True) sameTables_reads j (.init w.shared.registry.ride)) rfl
      · intro v w w' hv hsame
        have hsame : w'.shared.tables = w.shared.tables := hsame
        show w'.shared.tables = tablesOf v
        rw [hsame, tablesOf, hv]
      · exact fun _ _ hj => ⟨j, hj⟩
  | rateTrip tripId fromUserId dto uuid =>
      exact Justified.void (rateTrip_issuedAlone tripId fromUserId dto uuid)

end Calls

/-- In whole calls, one at a time, every rating goes from one participant of a
completed trip to another one, in every state on the way, if and only if no user
accepts an offer of their own. -/
theorem fairly_rated_iff (cfg : Config) (fresh : FreshUsers)
    (calls : List (RatingInvocation × List Bool)) :
    ((ratingPool fresh).serveAll (ratingSystem cfg) calls).world.Always
        (fun w => w.shared.FairlyRated) ↔
      ((ratingPool fresh).serveAll (ratingSystem cfg) calls).world.AllExecuted AcceptsOther := by
  have hinit : (ratingPool fresh).world.shared.FairlyRated :=
    .of_ratings (fun t ht => absurd ht (Table.not_mem_empty t))
      fun r hr => absurd hr (Table.not_mem_empty r)
  have hcoherent : (ratingPool fresh).world.shared.tables.Coherent := RideTables.Coherent.empty
  apply Pool.serveAll_always_iff (I := fun w => w.shared.tables.Coherent)
    (J := IssuedAlone) (K := fun w => w.shared.FairlyRated) sameRides_refl
  · exact fun i w _ => (rated_issuedAlone i w).strengthen fun _ _ => trivial
  · exact fun h hJ hx => rated_coherent_commit h hJ hx
  · exact fun hc hJ h hx => fairlyRated_commit_iff hc hJ h hx
  · exact hcoherent
  · exact hinit

/-- A user with a driver profile is their own driver, and rates the ride. -/
def selfRide : List (RatingInvocation × List Bool) :=
  [(.ride (.verifyDriver "user" "application" "profile"), []),
    (.ride (.create "user" ⟨6, 3, 7, 4, 1500⟩ "request"), []),
    (.ride (.submitOffer "user" "request" 1500 "offer"), []),
    (.ride (.acceptOffer "user" "offer" "trip"), []),
    (.ride (.start "trip" "user"), []),
    (.ride (.complete "trip" "user"), []),
    (.rateTrip "trip" "user" ⟨5, none⟩ "rating", [])]

instance (s : RatedRegistry) : Decidable s.FairlyRated :=
  decidable_of_iff
    ((∀ t ∈ s.tables.trips, t.driverId ≠ t.riderId) ∧
      (∀ r ∈ s.ratings, ∃ t ∈ s.tables.trips, t.id = r.tripId ∧ t.status = .completed ∧
        t.Between r.fromUserId r.toUserId) ∧
      (∀ r ∈ s.ratings, r.fromUserId ≠ r.toUserId) ∧
      ∀ r ∈ s.ratings, ∀ q ∈ s.ratings, r.tripId = q.tripId → r.fromUserId = q.fromUserId →
        r = q)
    ⟨fun h => ⟨h.1, h.2.1, h.2.2.1, h.2.2.2⟩, fun h => ⟨h.parties, h.rating, h.other, h.once⟩⟩

/-- They are then rider and driver of one trip, and have rated themselves. -/
theorem not_fairlyRated_selfRide :
    ¬ ((ratingPool oneApplicant).serveAll (ratingSystem .default)
      selfRide).world.shared.FairlyRated := by
  decide +kernel

end Reedr
