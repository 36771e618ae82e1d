import Reedr.Ride.History

/-!
# Who sees a ride request

`findOneForUser` turns nobody away but those who are neither the rider, nor a driver
with an offer on the request, nor the driver of its trip. That driver has an offer on
the request as well, so the outcome depends on two of the three tests only, and
nothing a later call writes takes the view away again. Whether an answer comes of
it is up to the conversion of the response.
-/

namespace Reedr
open Relational Interleaving

namespace RideRequestsService

/-- `assertCanView`: the owner, a driver with an offer, or the driver of the trip. -/
def canView (rideRequest : RideRequestWithOffers) (requester : Id) : Prop :=
  rideRequest.rideRequest.riderId = requester ∨
    (∃ o ∈ rideRequest.offers, o.driverUserId = requester) ∨
    rideRequest.trip.map (fun t => t.driverId) = some requester

instance (rideRequest : RideRequestWithOffers) (requester : Id) :
    Decidable (canView rideRequest requester) :=
  inferInstanceAs (Decidable (_ ∨ _ ∨ _))

def findOneForUser (cfg : Config) (id requester : Id) : RideCall RideRequestResponseDto := do
  let rideRequest ← Call.required (← perform (.findRideRequestWithOffers id))
    (.notFound "Ride request not found")
  Call.ensure (canView rideRequest requester) (.forbidden "Forbidden")
  respond (RideRequestResponseDto.from cfg.plainToInstance rideRequest.entity)

end RideRequestsService

open RideRequestsService

namespace RideTables
variable (db : RideTables)

/-- The user is a driver who has made an offer on the request. -/
def HasOffered (rideRequestId userId : Id) : Prop :=
  ∃ o ∈ db.rideOffers, o.rideRequestId = rideRequestId ∧
    ∃ p ∈ db.driverProfiles, p.id = o.driverId ∧ p.userId = userId

/-- The user takes part in the request, as its rider or as a bidding driver. -/
def Participates (r : RideRequest) (userId : Id) : Prop :=
  r.riderId = userId ∨ db.HasOffered r.id userId

variable {db} {db' : RideTables}

theorem HasOffered.mono {rideRequestId userId : Id} (h : db.HasOffered rideRequestId userId)
    (hg : db.Grows db') : db'.HasOffered rideRequestId userId := by
  obtain ⟨o, ho, hreq, p, hp, hid, huser⟩ := h
  obtain ⟨o', ho', hoo⟩ := hg.offers o ho
  obtain ⟨p', hp', hpp⟩ := hg.profiles p hp
  simp only [RideOffer.identity_eq, DriverProfile.identity_eq] at hoo hpp
  exact ⟨o', ho', hoo.2.1.trans hreq, p', hp', by rw [hpp.1, hid, hoo.2.2],
    hpp.2.1.trans huser⟩

/-- Who takes part in a request does so for good. -/
theorem Participates.mono {r r' : RideRequest} {userId : Id} (h : db.Participates r userId)
    (hg : db.Grows db') (hr : r'.identity = r.identity) : db'.Participates r' userId := by
  obtain ⟨hid, hrider⟩ := RideRequest.identity_eq.mp hr
  rcases h with hown | hoffered
  · exact Or.inl (hrider.trans hown)
  · exact Or.inr (hid ▸ hoffered.mono hg)

end RideTables

section View
variable {w : RideWorld}

/-- The driver of a trip had made an offer on its request. -/
theorem Recorded.trip_offered (h : Recorded w) {t : Trip} (ht : t ∈ (tablesOf w).trips) :
    (tablesOf w).HasOffered t.rideRequestId t.driverId := by
  obtain ⟨pre, c, post, htr, a, hop, -, hterms, -⟩ := h.trip_accepted t ht
  have hacc : a ∈ acceptances w.trace :=
    List.mem_filterMap.mpr ⟨c, by simp [htr], by rw [hop]; rfl⟩
  obtain ⟨o, ho, -, hreq, p, hp, hid, huser⟩ := h.acceptance_offer a hacc
  obtain ⟨-, hreq', hdriver, -⟩ := Trip.terms_eq.mp hterms
  exact ⟨o, ho, hreq.trans hreq', p, hp, hid, huser.trans hdriver⟩

/-- No offer is without its driver, so the join has them all. -/
theorem Recorded.joined_all (h : Recorded w) (rideRequestId : Id) :
    (((tablesOf w).rideOffers.findMany fun o => o.rideRequestId = rideRequestId).filterMap
        (tablesOf w).withDriver).map (fun o => o.offer) =
      (tablesOf w).rideOffers.findMany fun o => o.rideRequestId = rideRequestId := by
  have hjoin : ∀ o ∈ (tablesOf w).rideOffers, ∃ x, (tablesOf w).withDriver o = some x ∧
      x.offer = o := by
    intro o ho
    obtain ⟨p, hp, hid, -⟩ := h.offer_submitted o ho
    refine ⟨⟨o, p.userId⟩, ?_, rfl⟩
    rw [RideTables.withDriver, ← hid, RideTables.findDriverProfile_of_mem hp]
    rfl
  generalize hl : (tablesOf w).rideOffers.findMany _ = l
  have hmem : ∀ o ∈ l, o ∈ (tablesOf w).rideOffers :=
    fun o ho => (Table.mem_findMany.mp (hl ▸ ho)).1
  clear hl
  induction l with
  | nil => rfl
  | cons o rest ih =>
      obtain ⟨x, hx, hoffer⟩ := hjoin o (hmem o List.mem_cons_self)
      rw [List.filterMap_cons_some hx, List.map_cons, hoffer,
        ih fun o ho => hmem o (List.mem_cons_of_mem _ ho)]

/-- Of the three tests of `assertCanView` the last is implied by the second. -/
theorem canView_iff (h : Recorded w) {id requester : Id} {v : RideRequestWithOffers}
    (hv : (tablesOf w).findRideRequestWithOffers id = some v) :
    canView v requester ↔ (tablesOf w).Participates v.rideRequest requester := by
  obtain ⟨-, hid, hoffers, htrip⟩ := RideTables.findRideRequestWithOffers_some hv
  refine or_congr_right ?_
  constructor
  · rintro (⟨x, hx, rfl⟩ | hdriver)
    · rw [hoffers] at hx
      obtain ⟨o, ho, hx⟩ := List.mem_filterMap.mp hx
      obtain ⟨ho, hreq⟩ := Table.mem_findMany.mp ho
      obtain ⟨rfl, hp⟩ := RideTables.withDriver_some hx
      exact ⟨x.offer, ho, (of_decide_eq_true hreq).trans hid.symm, hp⟩
    · obtain ⟨t, ht, rfl⟩ := Option.map_eq_some_iff.mp hdriver
      rw [htrip] at ht
      obtain ⟨ht, hreq⟩ := Table.find?_some ht
      rw [hid, ← of_decide_eq_true hreq]
      exact h.trip_offered ht
  · rintro ⟨o, ho, hreq, p, hp, hpid, rfl⟩
    refine Or.inl ⟨⟨o, p.userId⟩, ?_, rfl⟩
    rw [hoffers]
    refine List.mem_filterMap.mpr ⟨o, Table.mem_findMany.mpr ⟨ho, ?_⟩, ?_⟩
    · exact decide_eq_true (hreq.trans hid)
    · rw [RideTables.withDriver, ← hpid, RideTables.findDriverProfile_of_mem hp]
      rfl

end View

/-- What `findOneForUser` answers in a world, whoever calls it as whichever call. -/
def answers (cfg : Config) (w : RideWorld) (n : Nat) (i : Invocation) (id requester : Id) :
    Except ServiceError RideRequestResponseDto :=
  ((findOneForUser cfg id requester).eval (rideSystem cfg) n i [] w).1

theorem answers_eq (cfg : Config) (w : RideWorld) (n : Nat) (i : Invocation)
    (id requester : Id) :
    answers cfg w n i id requester =
      match (tablesOf w).findRideRequestWithOffers id with
      | none => .error (.notFound "Ride request not found")
      | some v =>
          if canView v requester then
            (RideRequestResponseDto.from cfg.plainToInstance v.entity).mapError .internal
          else .error (.forbidden "Forbidden") := by
  rw [answers, findOneForUser,
    Call.eval_step (s := w.shared) (b := (tablesOf w).findRideRequestWithOffers id) rfl rfl]
  cases (tablesOf w).findRideRequestWithOffers id with
  | none => rfl
  | some v =>
      by_cases hv : canView v requester
      · simp only [Call.required_some, Call.done_bind, Call.ensure, if_pos hv, respond]
        cases RideRequestResponseDto.from cfg.plainToInstance v.entity <;> rfl
      · simp only [Call.required_some, Call.done_bind, Call.ensure, if_neg hv]
        rfl

/-- The caller is turned away, by the lookup or by `assertCanView`. -/
def TurnedAway (r : Except ServiceError RideRequestResponseDto) : Prop :=
  r = .error (.notFound "Ride request not found") ∨ r = .error (.forbidden "Forbidden")

/-- A conversion that throws turns nobody away. -/
theorem not_turnedAway_mapError (r : Except String RideRequestResponseDto) :
    ¬ TurnedAway (r.mapError .internal) := by
  rintro (h | h) <;> cases r <;> cases h

section Answers
variable {cfg : Config} {w : RideWorld} {n : Nat} {i : Invocation} {id requester : Id}

theorem RideTables.findRideRequestWithOffers_eq_none {db : RideTables} :
    db.findRideRequestWithOffers id = none ↔ ∀ r ∈ db.rideRequests, r.id ≠ id := by
  constructor
  · intro hnone r hr hid
    exact of_decide_eq_false (Table.find?_none (Option.map_eq_none_iff.mp hnone) r hr) hid
  · intro hall
    cases hv : db.findRideRequestWithOffers id with
    | none => rfl
    | some v =>
        obtain ⟨hr, hid, -⟩ := RideTables.findRideRequestWithOffers_some hv
        exact absurd hid (hall _ hr)

/-- A request read with its offers and trip is the stored one. -/
theorem Recorded.found (h : Recorded w) {r : RideRequest}
    (hr : r ∈ (tablesOf w).rideRequests) (hid : r.id = id) :
    ∃ v, (tablesOf w).findRideRequestWithOffers id = some v ∧ v.rideRequest = r ∧
      v.trip = (tablesOf w).trips.find? (fun t => t.rideRequestId = id) ∧
      v.offers.map (fun o => o.offer) =
        (tablesOf w).rideOffers.findMany fun o => o.rideRequestId = id := by
  cases hv : (tablesOf w).findRideRequestWithOffers id with
  | none => exact absurd hid (RideTables.findRideRequestWithOffers_eq_none.mp hv r hr)
  | some v =>
      obtain ⟨hvr, hvid, hoffers, htrip⟩ := RideTables.findRideRequestWithOffers_some hv
      refine ⟨v, rfl, RideRequest.eq_of_id hvr hr (hvid.trans hid.symm), htrip, ?_⟩
      rw [hoffers]
      exact h.joined_all id

theorem answers_notFound_iff :
    answers cfg w n i id requester = .error (.notFound "Ride request not found") ↔
      ∀ r ∈ (tablesOf w).rideRequests, r.id ≠ id := by
  rw [answers_eq, ← RideTables.findRideRequestWithOffers_eq_none]
  cases (tablesOf w).findRideRequestWithOffers id with
  | none => exact iff_of_true rfl rfl
  | some v =>
      refine iff_of_false (fun hanswer => ?_) nofun
      dsimp only at hanswer
      split at hanswer
      · exact not_turnedAway_mapError _ (Or.inl hanswer)
      · cases hanswer

/-- `assertCanView` lets those pass who take part in the request. -/
theorem Recorded.answers_forbidden_iff (h : Recorded w) :
    answers cfg w n i id requester = .error (.forbidden "Forbidden") ↔
      ∃ r ∈ (tablesOf w).rideRequests, r.id = id ∧ ¬ (tablesOf w).Participates r requester := by
  rw [answers_eq]
  constructor
  · intro hanswer
    split at hanswer
    · cases hanswer
    · next v hv =>
        obtain ⟨hr, hid, -⟩ := RideTables.findRideRequestWithOffers_some hv
        split at hanswer
        · exact absurd (Or.inr hanswer) (not_turnedAway_mapError _)
        · next hnot =>
            exact ⟨v.rideRequest, hr, hid, fun hpart => hnot ((canView_iff h hv).mpr hpart)⟩
  · rintro ⟨r, hr, hid, hnot⟩
    obtain ⟨v, hv, rfl, -⟩ := h.found hr hid
    rw [hv]
    exact if_neg fun hcan => hnot ((canView_iff h hv).mp hcan)

/-- To them goes the request with its trip and all its offers, if it can be converted. -/
theorem Recorded.answers_of_participates (h : Recorded w) {r : RideRequest}
    (hr : r ∈ (tablesOf w).rideRequests) (hid : r.id = id)
    (hpart : (tablesOf w).Participates r requester) :
    ∃ v : RideRequestWithOffers, v.rideRequest = r ∧
      v.trip = (tablesOf w).trips.find? (fun t => t.rideRequestId = id) ∧
      v.offers.map (fun o => o.offer) =
        ((tablesOf w).rideOffers.findMany fun o => o.rideRequestId = id) ∧
      answers cfg w n i id requester =
        (RideRequestResponseDto.from cfg.plainToInstance v.entity).mapError .internal := by
  obtain ⟨v, hv, rfl, htrip, hoffers⟩ := h.found hr hid
  refine ⟨v, rfl, htrip, hoffers, ?_⟩
  rw [answers_eq, hv]
  exact if_pos ((canView_iff h hv).mpr hpart)

/-- Who is not turned away takes part. -/
theorem Recorded.not_turnedAway_iff (h : Recorded w) :
    ¬ TurnedAway (answers cfg w n i id requester) ↔
      ∃ r ∈ (tablesOf w).rideRequests, r.id = id ∧ (tablesOf w).Participates r requester := by
  constructor
  · intro hnot
    by_contra hnone
    refine hnot ?_
    by_cases hall : ∀ r ∈ (tablesOf w).rideRequests, r.id ≠ id
    · exact Or.inl (answers_notFound_iff.mpr hall)
    · push Not at hall
      obtain ⟨r, hr, hid⟩ := hall
      exact Or.inr (h.answers_forbidden_iff.mpr
        ⟨r, hr, hid, fun hpart => hnone ⟨r, hr, hid, hpart⟩⟩)
  · rintro ⟨r, hr, hid, hpart⟩
    obtain ⟨v, -, -, -, hanswer⟩ : ∃ v : RideRequestWithOffers, _ ∧ _ ∧ _ ∧
        answers cfg w n i id requester = _ := h.answers_of_participates hr hid hpart
    rw [hanswer]
    exact not_turnedAway_mapError _

end Answers

/-- Under any interleaving `findOneForUser` finds every stored request and turns away
exactly those who are neither its rider nor a driver with an offer on it; to all others
it answers with the request, its trip and all its offers, as far as the response can be
converted, and who is let through once is let through ever after. -/
theorem viewed_by_participants (cfg : Config) (ms more : List RideMove) (n : Nat)
    (i : Invocation) (id requester : Id) :
    let w := (ridePool.run (rideSystem cfg) ms).world
    (answers cfg w n i id requester = .error (.notFound "Ride request not found") ↔
        ∀ r ∈ (tablesOf w).rideRequests, r.id ≠ id) ∧
      (answers cfg w n i id requester = .error (.forbidden "Forbidden") ↔
        ∃ r ∈ (tablesOf w).rideRequests, r.id = id ∧
          ¬ (tablesOf w).Participates r requester) ∧
      (∀ r ∈ (tablesOf w).rideRequests, r.id = id → (tablesOf w).Participates r requester →
        ∃ v : RideRequestWithOffers, v.rideRequest = r ∧
          v.trip = (tablesOf w).trips.find? (fun t => t.rideRequestId = id) ∧
          v.offers.map (fun o => o.offer) =
            ((tablesOf w).rideOffers.findMany fun o => o.rideRequestId = id) ∧
          answers cfg w n i id requester =
            (RideRequestResponseDto.from cfg.plainToInstance v.entity).mapError .internal) ∧
      (¬ TurnedAway (answers cfg w n i id requester) → ¬ TurnedAway
        (answers cfg (ridePool.run (rideSystem cfg) (ms ++ more)).world n i id requester)) := by
  intro w
  have hR : Recorded w := (ridePool_sound cfg ms).1
  refine ⟨answers_notFound_iff, hR.answers_forbidden_iff, fun r hr hid hpart =>
    hR.answers_of_participates hr hid hpart, fun hnot => ?_⟩
  obtain ⟨r, hr, hid, hpart⟩ := hR.not_turnedAway_iff.mp hnot
  have hev : Evolves w (ridePool.run (rideSystem cfg) (ms ++ more)).world := by
    rw [Pool.run_append]
    exact (ride_discipline cfg).rely_run (ridePool_sound cfg ms) more
  obtain ⟨r', hr', hrr⟩ := hev.tables.requests r hr
  refine (ridePool_sound cfg (ms ++ more)).1.not_turnedAway_iff.mpr ⟨r', hr', ?_, ?_⟩
  · exact (RideRequest.identity_eq.mp hrr).1.trans hid
  · exact hpart.mono hev.tables hrr

end Reedr
