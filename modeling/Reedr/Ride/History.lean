import Reedr.Ride.Evolution

/-!
# The tables and the history of the statements that made them

`Recorded` ties every row to the statements in the history that account for it:
an offer to the submission its fare comes from, an accepted offer and a trip to
one acceptance, and each acceptance to its trip. It holds under any
interleaving, because it follows from what each call had read and from what no
statement undoes.
-/

namespace Reedr
open Relational Interleaving

/-- One executed statement of a run of the ride services. -/
abbrev RideCommit := Commit rideSignature Backend Invocation

/-- The acceptance a statement commits, if it is one. -/
def Stmt.acceptance? : Stmt → Option Acceptance
  | .acceptBatch a => some a
  | _ => none

theorem Stmt.acceptance?_eq_none {o : Stmt}
    (h : o.writesTables = false ∨ o.updatesProfile = true) : o.acceptance? = none := by
  cases o with
  | acceptBatch a => simp [writesTables, updatesProfile] at h
  | _ => rfl

/-- The acceptances committed in a history, in order. -/
def acceptances (trace : List RideCommit) : List Acceptance :=
  trace.filterMap fun c => Stmt.acceptance? c.op

/-- The driver had submitted the fare on the ride request. -/
def Submitted (trace : List RideCommit) (driverUserId rideRequestId : Id) (fare : Fare) : Prop :=
  ∃ c ∈ trace, ∃ driverProfileId uuid,
    c.inv = .submitOffer driverUserId rideRequestId fare uuid ∧
      c.op = .upsertOffer rideRequestId driverProfileId fare uuid

/-- Statement `c`, executed after `pre`, is the acceptance the trip comes from:
requested by the trip's rider, at a fare the trip's driver had submitted. -/
def AcceptedAs (pre : List RideCommit) (c : RideCommit) (t : Trip) : Prop :=
  ∃ a, c.op = .acceptBatch a ∧ c.inv = .acceptOffer t.riderId a.offerId t.id ∧
    a.trip.terms = t.terms ∧ Submitted pre t.driverId t.rideRequestId t.agreedFare

/-- Every row is accounted for by the history. -/
structure Recorded (w : RideWorld) : Prop where
  offer_request : ∀ o ∈ (tablesOf w).rideOffers,
    ∃ r ∈ (tablesOf w).rideRequests, r.id = o.rideRequestId
  offer_submitted : ∀ o ∈ (tablesOf w).rideOffers, ∃ p ∈ (tablesOf w).driverProfiles,
    p.id = o.driverId ∧ Submitted w.trace p.userId o.rideRequestId o.offeredFare
  offer_accepted : ∀ o ∈ (tablesOf w).rideOffers, o.status = .accepted →
    ∃ a ∈ acceptances w.trace, a.offerId = o.id
  trip_request : ∀ t ∈ (tablesOf w).trips, ∃ r ∈ (tablesOf w).rideRequests,
    r.id = t.rideRequestId ∧ r.riderId = t.riderId
  trip_accepted : ∀ t ∈ (tablesOf w).trips, ∃ pre c post,
    w.trace = pre ++ c :: post ∧ AcceptedAs pre c t
  acceptance_trip : ∀ a ∈ acceptances w.trace, ∃ t ∈ (tablesOf w).trips,
    t.terms = a.trip.terms
  acceptance_offer : ∀ a ∈ acceptances w.trace, ∃ o ∈ (tablesOf w).rideOffers,
    o.id = a.offerId ∧ o.rideRequestId = a.rideRequestId ∧
      ∃ p ∈ (tablesOf w).driverProfiles, p.id = o.driverId ∧ p.userId = a.driverUserId
  acceptances_nodup : ((acceptances w.trace).map fun a => a.rideRequestId).Nodup

/-- A later world of the same run, as far as interleaved calls may rely on it. -/
structure Evolves (w w' : RideWorld) : Prop where
  tables : (tablesOf w).Grows (tablesOf w')
  trace : w.trace <+: w'.trace

theorem Evolves.refl (w : RideWorld) : Evolves w w :=
  ⟨.refl _, List.prefix_rfl⟩

theorem Evolves.trans {w₁ w₂ w₃ : RideWorld} (h₁ : Evolves w₁ w₂) (h₂ : Evolves w₂ w₃) :
    Evolves w₁ w₃ :=
  ⟨h₁.tables.trans h₂.tables, h₁.trace.trans h₂.trace⟩

theorem evolves_reads : Reads Evolves where
  refl := .refl
  trans := .trans
  silent {w n i o s} _ hs := ⟨by
    show (tablesOf w).Grows s.tables
    rw [hs]
    exact .refl _, List.prefix_append _ _⟩

theorem Submitted.mono {trace trace' : List RideCommit} {driverUserId rideRequestId : Id}
    {fare : Fare} (h : Submitted trace driverUserId rideRequestId fare)
    (hsub : trace <+: trace') : Submitted trace' driverUserId rideRequestId fare := by
  obtain ⟨c, hc, rest⟩ := h
  exact ⟨c, hsub.subset hc, rest⟩

section Commit
variable {cfg : Config} {w : RideWorld} {n : Nat} {i : Invocation} {o : Stmt} {b : o.Res}
  {s : Backend}

/-- Executing a statement is one step of the run. -/
theorem evolves_commit (h : Backend.exec cfg o w.shared = .ok (b, s)) :
    Evolves w (w.commit n i o s) :=
  ⟨.of_wrote (Backend.exec_wrote h), List.prefix_append _ _⟩

theorem acceptances_commit :
    acceptances (w.commit n i o s).trace = acceptances w.trace ++ o.acceptance?.toList := by
  cases h : o.acceptance? <;> simp [acceptances, h]

/-- A statement other than an acceptance keeps the records when no row appears
that they do not account for. -/
private theorem Recorded.commit_other (h : Recorded w) (hnone : o.acceptance? = none)
    (hg : (tablesOf w).Grows s.tables)
    (hoffers : ∀ x ∈ s.tables.rideOffers,
      (∃ y ∈ (tablesOf w).rideOffers, x.Continues y) ∨
      (x.status = .pending ∧ (∃ r ∈ s.tables.rideRequests, r.id = x.rideRequestId) ∧
        ∃ p ∈ s.tables.driverProfiles, p.id = x.driverId ∧
          Submitted (w.commit n i o s).trace p.userId x.rideRequestId x.offeredFare))
    (htrips : s.tables.trips.Persists Trip.terms (tablesOf w).trips) :
    Recorded (w.commit n i o s) := by
  have hacc : acceptances (w.commit n i o s).trace = acceptances w.trace := by
    rw [acceptances_commit, hnone]
    exact List.append_nil _
  have hpre : w.trace <+: (w.commit n i o s).trace := List.prefix_append _ _
  constructor
  · intro x hx
    rcases hoffers x hx with ⟨y, hy, ⟨hid, -, -⟩⟩ | ⟨-, hr, -⟩
    · obtain ⟨r, hr, hrid⟩ := h.offer_request y hy
      obtain ⟨r', hr', hrr⟩ := hg.requests r hr
      simp only [RideOffer.identity_eq, RideRequest.identity_eq] at hid hrr
      exact ⟨r', hr', hrr.1.trans (hrid.trans hid.2.1.symm)⟩
    · exact hr
  · intro x hx
    rcases hoffers x hx with ⟨y, hy, ⟨hid, hfare, -⟩⟩ | ⟨-, -, hp⟩
    · obtain ⟨p, hp, hpid, hsub⟩ := h.offer_submitted y hy
      obtain ⟨p', hp', hpp⟩ := hg.profiles p hp
      simp only [RideOffer.identity_eq, DriverProfile.identity_eq] at hid hpp
      refine ⟨p', hp', hpp.1.trans (hpid.trans hid.2.2.symm), ?_⟩
      rw [hid.2.1, hfare, hpp.2.1]
      exact hsub.mono hpre
    · exact hp
  · intro x hx hst
    rcases hoffers x hx with ⟨y, hy, ⟨hid, -, hacc'⟩⟩ | ⟨hpend, -, -⟩
    · obtain ⟨a, ha, haid⟩ := h.offer_accepted y hy (hacc' hst)
      exact ⟨a, hacc ▸ ha, haid.trans (RideOffer.identity_eq.mp hid).1.symm⟩
    · rw [hst] at hpend
      cases hpend
  · intro t ht
    obtain ⟨u, hu, hut⟩ := htrips t ht
    obtain ⟨r, hr, hrid, hrider⟩ := h.trip_request u hu
    obtain ⟨r', hr', hrr⟩ := hg.requests r hr
    simp only [Trip.terms_eq, RideRequest.identity_eq] at hut hrr
    exact ⟨r', hr', by rw [hrr.1, hrid, hut.2.1], by rw [hrr.2, hrider, hut.2.2.2.1]⟩
  · intro t ht
    obtain ⟨u, hu, hut⟩ := htrips t ht
    obtain ⟨pre, c, post, htr, a, hop, hinv, hterms, hsub⟩ := h.trip_accepted u hu
    refine ⟨pre, c, post ++ [⟨n, i, o, w.shared⟩], by simp [htr], a, hop, ?_, hterms.trans hut, ?_⟩
    · simp only [Trip.terms_eq] at hut
      rw [hinv, hut.1, hut.2.2.2.1]
    · simp only [Trip.terms_eq] at hut
      rwa [hut.2.1, hut.2.2.1, hut.2.2.2.2] at hsub
  · intro a ha
    obtain ⟨t, ht, hta⟩ := h.acceptance_trip a (hacc ▸ ha)
    obtain ⟨t', ht', htt⟩ := hg.trips t ht
    exact ⟨t', ht', htt.trans hta⟩
  · intro a ha
    obtain ⟨y, hy, hid, hreq, p, hp, hpid, hpu⟩ := h.acceptance_offer a (hacc ▸ ha)
    obtain ⟨x, hx, hxy⟩ := hg.offers y hy
    obtain ⟨p', hp', hpp⟩ := hg.profiles p hp
    simp only [RideOffer.identity_eq, DriverProfile.identity_eq] at hxy hpp
    exact ⟨x, hx, hxy.1.trans hid, hxy.2.1.trans hreq, p', hp',
      by rw [hpp.1, hpid, hxy.2.2], hpp.2.1.trans hpu⟩
  · rw [hacc]
    exact h.acceptances_nodup

/-- What an acceptance still knows when its batch commits. -/
structure AcceptKnown (a : Acceptance) (i : Invocation) (w : RideWorld) : Prop where
  inv : i = .acceptOffer a.riderId a.offerId a.tripId
  offer : ∃ o ∈ (tablesOf w).rideOffers, o.id = a.offerId ∧ o.rideRequestId = a.rideRequestId ∧
    ∃ p ∈ (tablesOf w).driverProfiles, p.id = o.driverId ∧ p.userId = a.driverUserId
  request : ∃ r ∈ (tablesOf w).rideRequests, r.id = a.rideRequestId ∧ r.riderId = a.riderId
  submitted : Submitted w.trace a.driverUserId a.rideRequestId a.offeredFare

theorem acceptKnown_of_seen {a : Acceptance}
    (h : Seen Recorded Evolves w (AcceptRead a i)) : AcceptKnown a i w := by
  obtain ⟨w₀, hI, he, hinv, ⟨o, ho, hoid, hreq, hfare, -, p, hp, hpid, hpu⟩,
    r, hr, hrid, hrider, -⟩ := h
  obtain ⟨q, hq, hqid, hsub⟩ := hI.offer_submitted o ho
  obtain rfl := DriverProfile.eq_of_id hq hp (hqid.trans hpid.symm)
  obtain ⟨o', ho', hoo⟩ := he.tables.offers o ho
  obtain ⟨p', hp', hpp⟩ := he.tables.profiles q hp
  obtain ⟨r', hr', hrr⟩ := he.tables.requests r hr
  simp only [RideOffer.identity_eq, DriverProfile.identity_eq, RideRequest.identity_eq]
    at hoo hpp hrr
  refine ⟨hinv, ⟨o', ho', hoo.1.trans hoid, hoo.2.1.trans hreq, p', hp', ?_, hpp.2.1.trans hpu⟩,
    ⟨r', hr', hrr.1.trans hrid, hrr.2.trans hrider⟩, ?_⟩
  · rw [hpp.1, hpid, hoo.2.2]
  · rw [← hpu, ← hreq, ← hfare]
    exact hsub.mono he.trace

/-- What a cancellation that had read a trip still knows when its batch commits:
this is the trip of the request. -/
theorem cancelKnown_of_seen {c : Cancellation}
    (h : Seen Recorded Evolves w (CancelRead c i)) {id : Id} (hid : c.tripId = some id)
    {t : Trip} (ht : t ∈ (tablesOf w).trips) : t.id = id ↔ t.rideRequestId = c.rideRequestId := by
  obtain ⟨w₀, -, he, hread⟩ := h
  obtain ⟨u, hu, huid, hureq⟩ := hread.trip id hid
  obtain ⟨u', hu', huu⟩ := he.tables.trips u hu
  have huu := Trip.terms_eq.mp huu
  constructor
  · intro h
    obtain rfl := Trip.eq_of_id ht hu' (by rw [h, huu.1, huid])
    exact huu.2.1.trans hureq
  · intro h
    obtain rfl := Trip.eq_of_rideRequestId ht hu' (by rw [h, huu.2.1, hureq])
    exact huu.1.trans huid

/-- What `start` and `complete` still know when their batch commits: the request
is the one of the trip, and a trip that had left MATCHED is not back there. -/
theorem tripKnown_of_seen {u : TripUpdate} {status : TripStatus} {inv : Id → Id → Invocation}
    (h : Seen Recorded Evolves w (TripRead u status inv i)) {t : Trip}
    (ht : t ∈ (tablesOf w).trips) :
    (t.id = u.tripId ↔ t.rideRequestId = u.rideRequestId) ∧
      (status ≠ .matched → t.id = u.tripId → t.status ≠ .matched) := by
  obtain ⟨w₀, -, he, x, hx, hxid, hxreq, hst, -⟩ := h
  obtain ⟨x', hx', hxx⟩ := he.tables.trips x hx
  have hxx := Trip.terms_eq.mp hxx
  refine ⟨⟨fun h => ?_, fun h => ?_⟩, fun hne h => ?_⟩
  · obtain rfl := Trip.eq_of_id ht hx' (by rw [h, hxx.1, hxid])
    exact hxx.2.1.trans hxreq
  · obtain rfl := Trip.eq_of_rideRequestId ht hx' (by rw [h, hxx.2.1, hxreq])
    exact hxx.1.trans hxid
  · exact he.tables.departed x hx (hst ▸ hne) t ht (h.trans hxid.symm)

/-- A committed acceptance is recorded together with its trip. -/
private theorem Recorded.commit_accept {a : Acceptance} {t : Trip} (h : Recorded w)
    (hk : AcceptKnown a i w) (he : a.Effect (tablesOf w) t s.tables)
    (hg : (tablesOf w).Grows s.tables) :
    Recorded (w.commit n i (.acceptBatch a) s) := by
  have hacc : acceptances (w.commit n i (.acceptBatch a) s).trace = acceptances w.trace ++ [a] :=
    acceptances_commit
  have hpre : w.trace <+: (w.commit n i (.acceptBatch a) s).trace := List.prefix_append _ _
  have hprofiles : s.tables.driverProfiles = (tablesOf w).driverProfiles := he.profiles
  constructor
  · intro x hx
    obtain ⟨y, hy, rfl⟩ := (he.offers x).mp hx
    obtain ⟨r, hr, hrid⟩ := h.offer_request y hy
    obtain ⟨r', hr', hrr⟩ := hg.requests r hr
    have hid := RideOffer.identity_eq.mp (a.onOffer_identity y)
    exact ⟨r', hr', by rw [(RideRequest.identity_eq.mp hrr).1, hrid, hid.2.1]⟩
  · intro x hx
    obtain ⟨y, hy, rfl⟩ := (he.offers x).mp hx
    obtain ⟨p, hp, hpid, hsub⟩ := h.offer_submitted y hy
    have hid := RideOffer.identity_eq.mp (a.onOffer_identity y)
    refine ⟨p, hprofiles.symm ▸ hp, by rw [hpid, hid.2.2], ?_⟩
    rw [hid.2.1, a.onOffer_fare]
    exact hsub.mono hpre
  · intro x hx hst
    rw [hacc]
    obtain ⟨y, hy, rfl⟩ := (he.offers x).mp hx
    have hid := RideOffer.identity_eq.mp (a.onOffer_identity y)
    rcases a.onOffer_accepted hst with hya | hya
    · exact ⟨a, by simp, by rw [hid.1, hya]⟩
    · obtain ⟨a', ha', haid⟩ := h.offer_accepted y hy hya
      exact ⟨a', List.mem_append_left _ ha', by rw [haid, hid.1]⟩
  · intro u hu
    rcases (he.trips u).mp hu with hu | rfl
    · obtain ⟨r, hr, hrid, hrider⟩ := h.trip_request u hu
      obtain ⟨r', hr', hrr⟩ := hg.requests r hr
      have hrr := RideRequest.identity_eq.mp hrr
      exact ⟨r', hr', hrr.1.trans hrid, hrr.2.trans hrider⟩
    · obtain ⟨r, hr, hrid, hrider⟩ := hk.request
      obtain ⟨r', hr', hrr⟩ := hg.requests r hr
      have hrr := RideRequest.identity_eq.mp hrr
      exact ⟨r', hr', hrr.1.trans hrid, hrr.2.trans hrider⟩
  · intro u hu
    rcases (he.trips u).mp hu with hu | rfl
    · obtain ⟨pre, c, post, htr, hc⟩ := h.trip_accepted u hu
      exact ⟨pre, c, post ++ [⟨n, i, .acceptBatch a, w.shared⟩], by simp [htr], hc⟩
    · exact ⟨w.trace, ⟨n, i, .acceptBatch a, w.shared⟩, [], rfl, a, rfl, hk.inv, rfl,
        hk.submitted⟩
  · intro a' ha'
    rw [hacc, List.mem_append, List.mem_singleton] at ha'
    rcases ha' with ha' | rfl
    · obtain ⟨u, hu, hua⟩ := h.acceptance_trip a' ha'
      exact ⟨u, he.trips.mem_old hu, hua⟩
    · exact ⟨a'.trip, he.trips.mem_new, rfl⟩
  · intro a' ha'
    have hold : ∃ o ∈ (tablesOf w).rideOffers, o.id = a'.offerId ∧
        o.rideRequestId = a'.rideRequestId ∧
        ∃ p ∈ (tablesOf w).driverProfiles, p.id = o.driverId ∧ p.userId = a'.driverUserId := by
      rw [hacc, List.mem_append, List.mem_singleton] at ha'
      rcases ha' with ha' | rfl
      · exact h.acceptance_offer a' ha'
      · exact hk.offer
    obtain ⟨y, hy, hyid, hyreq, p, hp, hpid, hpu⟩ := hold
    have hid := RideOffer.identity_eq.mp (a.onOffer_identity y)
    exact ⟨a.onOffer y, he.offers.mem hy, hid.1.trans hyid, hid.2.1.trans hyreq, p,
      hprofiles.symm ▸ hp, hpid.trans hid.2.2.symm, hpu⟩
  · rw [hacc, List.map_append, List.nodup_append]
    refine ⟨h.acceptances_nodup, by simp, fun r hr r' hr' => ?_⟩
    obtain ⟨a', ha', rfl⟩ := List.mem_map.mp hr
    obtain rfl : r' = a.rideRequestId := by simpa using hr'
    obtain ⟨u, hu, hua⟩ := h.acceptance_trip a' ha'
    have hreq : u.rideRequestId = a'.rideRequestId := (Trip.terms_eq.mp hua).2.1
    exact hreq ▸ he.fresh u hu

/-- Each statement, issued with its fact, keeps the records. -/
theorem recorded_commit (h : Recorded w) (hJ : Issued Recorded Evolves w i o)
    (hx : Backend.exec cfg o w.shared = .ok (b, s)) : Recorded (w.commit n i o s) := by
  have hwrote := Backend.exec_wrote hx
  have hg : (tablesOf w).Grows s.tables := .of_wrote hwrote
  have kept (hnone : o.acceptance? = none)
      (ho : ∀ x ∈ s.tables.rideOffers, ∃ y ∈ (tablesOf w).rideOffers, x.Continues y)
      (ht : s.tables.trips.Persists Trip.terms (tablesOf w).trips) :
      Recorded (w.commit n i o s) :=
    h.commit_other hnone hg (fun x hx => Or.inl (ho x hx)) ht
  have same (ho : s.tables.rideOffers = (tablesOf w).rideOffers) :
      ∀ x ∈ s.tables.rideOffers, ∃ y ∈ (tablesOf w).rideOffers, x.Continues y :=
    fun x hx => ⟨x, ho ▸ hx, .refl x⟩
  have rewritten {f : RideOffer → RideOffer} (hf : ∀ y, (f y).Continues y)
      (ho : (tablesOf w).rideOffers.Rewrites f s.tables.rideOffers) :
      ∀ x ∈ s.tables.rideOffers, ∃ y ∈ (tablesOf w).rideOffers, x.Continues y := by
    intro x hx
    obtain ⟨y, hy, rfl⟩ := (ho x).mp hx
    exact ⟨y, hy, hf y⟩
  have trips (ht : s.tables.trips = (tablesOf w).trips) :
      s.tables.trips.Persists Trip.terms (tablesOf w).trips := ht ▸ .refl _
  generalize htb : s.tables = db' at hwrote
  cases hwrote with
  | nothing ho =>
      exact kept (Stmt.acceptance?_eq_none (Or.inl ho)) (same (congrArg _ htb))
        (trips (congrArg _ htb))
  | createDriverProfile he =>
      subst htb
      exact kept rfl (same he.offers) (trips he.trips)
  | updateDriverProfile ho he hf =>
      subst htb
      exact kept (Stmt.acceptance?_eq_none (Or.inr ho)) (same he.offers) (trips he.trips)
  | createRideRequest he =>
      subst htb
      exact kept rfl (same he.offers) (trips he.trips)
  | @upsertOffer rideRequestId driverId offeredFare uuid offer _ _ he =>
      subst htb
      refine h.commit_other rfl hg (fun x hx => ?_) (trips he.trips)
      rcases he.split x hx with ⟨hold, -⟩ | rfl
      · exact Or.inl ⟨x, hold, .refl x⟩
      · obtain ⟨⟨w₁, -, he₁, p, hp, hpid, hinv⟩, w₂, -, he₂, r, hr, hrid, -⟩ := hJ
        obtain ⟨p', hp', hpp⟩ := (he₁.tables.trans hg).profiles p hp
        obtain ⟨r', hr', hrr⟩ := (he₂.tables.trans hg).requests r hr
        simp only [DriverProfile.identity_eq, RideRequest.identity_eq] at hpp hrr
        refine Or.inr ⟨he.result_status,
          ⟨r', hr', hrr.1.trans (hrid.trans he.result_on.1.symm)⟩,
          p', hp', hpp.1.trans (hpid.trans he.result_on.2.symm), ?_⟩
        rw [he.result_on.1, he.result_fare, hpp.2.1]
        exact ⟨⟨n, i, _, w.shared⟩, by simp, driverId, uuid, hinv, rfl⟩
  | acceptBatch he => exact h.commit_accept (acceptKnown_of_seen hJ) (htb ▸ he) hg
  | expireOffer he =>
      subst htb
      exact kept rfl (rewritten (expireOfferRow_continues _) he.offers)
        (trips he.trips)
  | expireDriverOffers he =>
      subst htb
      exact kept rfl (rewritten (expireDriverOfferRow_continues _) he.offers)
        (trips he.trips)
  | @cancelBatch c _ _ _ he =>
      subst htb
      exact kept rfl (rewritten c.onOffer_continues he.offers)
        (he.trips.persists_back c.onTrip_terms)
  | @startBatch u _ _ _ he =>
      subst htb
      exact kept rfl (same he.offers) (he.trips.persists_back u.startTrip_terms)
  | @completeBatch u _ _ _ he =>
      subst htb
      exact kept rfl (same he.offers) (he.trips.persists_back u.completeTrip_terms)

end Commit

/-- Interleaved calls keep the records and stay within what each relies on. -/
theorem ride_discipline (cfg : Config) :
    Discipline (rideSystem cfg) Recorded Evolves (Issued Recorded Evolves) where
  refl := .refl
  trans := .trans
  start i w _ := code_issued evolves_reads i w
  keep h hJ hx := ⟨recorded_commit h hJ hx, evolves_commit hx⟩

theorem recorded_init : Recorded (World.init Backend.empty) := by
  refine ⟨?_, ?_, ?_, ?_, ?_, ?_, ?_, ?_⟩ <;>
    simp [tablesOf, Backend.empty, RideTables.empty, acceptances]

/-- From empty tables on, every interleaving is sound. -/
theorem ridePool_sound (cfg : Config) (ms : List RideMove) :
    (ridePool.run (rideSystem cfg) ms).Sound (rideSystem cfg) Recorded Evolves
      (Issued Recorded Evolves) :=
  (ride_discipline cfg).sound_run (Discipline.sound_init _ recorded_init) ms

end Reedr
