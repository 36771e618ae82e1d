import Reedr.Library.Thread
import Reedr.Ride.History
import Mathlib.Data.List.Nodup

/-!
# One acceptance per ride request

`acceptOffer` has no guard against a second acceptance in flight. What stops it
is the last statement of its batch, the insertion of a trip whose request is
unique, together with the rollback of the three statements before it.
-/

namespace Reedr
open Relational Interleaving

section Throws
variable (cfg : Config)

/-- The only error an acceptance may throw after its batch is an outage. -/
abbrev Accepting {α : Type} (written : Bool) (c : RideCall α) : Prop :=
  c.ThrowsAfter (rideSystem cfg) Stmt.writesTables (fun e => e = .outage) written

theorem cancelScheduledExpiry_throws (offerId : Id) :
    Accepting cfg true (OffersService.cancelScheduledExpiry offerId) := by
  refine Call.ThrowsAfter.perform_bind (fun job => ?_) fun _ e he => ?_
  · cases job with
    | none => trivial
    | some job => exact Call.ThrowsAfter.perform_recover fun _ => ()
  · rcases he with ⟨s, hs⟩ | ⟨-, he⟩
    · cases hs
    · exact he

theorem acceptOffer_throws (riderId offerId uuid : Id) :
    Accepting cfg false (OffersService.acceptOffer riderId offerId uuid).void := by
  simp only [OffersService.acceptOffer, Call.void_eq, bind_assoc]
  -- Nothing has been written yet when a guard throws or the batch fails.
  refine Call.ThrowsAfter.perform_bind (fun x => ?_) (by simp)
  refine Call.ThrowsAfter.required_bind (fun offer => ?_) (by simp [Stmt.writesTables])
  refine Call.ThrowsAfter.ensure_bind ?_ (by simp [Stmt.writesTables])
  refine Call.ThrowsAfter.ensure_bind ?_ (by simp [Stmt.writesTables])
  refine Call.ThrowsAfter.perform_bind (fun others => ?_) (by simp [Stmt.writesTables])
  refine Call.ThrowsAfter.perform_bind (fun trip => ?_) (by simp [Stmt.writesTables])
  refine Call.ThrowsAfter.bind (Call.ThrowsAfter.all fun offerId =>
    cancelScheduledExpiry_throws cfg offerId) fun _ => ?_
  refine Call.ThrowsAfter.perform_bind (fun _ => trivial) fun _ e he => ?_
  rcases he with ⟨s, hs⟩ | ⟨hext, -⟩
  · cases hs
  · cases hext

end Throws

section Records
variable {w : RideWorld}

/-- Two acceptances on one request are the same. -/
theorem Recorded.acceptance_unique (h : Recorded w) {a b : Acceptance}
    (ha : a ∈ acceptances w.trace) (hb : b ∈ acceptances w.trace)
    (hreq : a.rideRequestId = b.rideRequestId) : a = b :=
  List.inj_on_of_nodup_map h.acceptances_nodup ha hb hreq

/-- The acceptance of an accepted offer, its trip and its driver. -/
theorem Recorded.of_accepted (h : Recorded w) {o : RideOffer}
    (ho : o ∈ (tablesOf w).rideOffers) (hst : o.status = .accepted) :
    ∃ a ∈ acceptances w.trace, a.offerId = o.id ∧ a.rideRequestId = o.rideRequestId ∧
      ∃ t ∈ (tablesOf w).trips, t.rideRequestId = o.rideRequestId ∧
        ∃ p ∈ (tablesOf w).driverProfiles, p.id = o.driverId ∧ p.userId = t.driverId := by
  obtain ⟨a, ha, hid⟩ := h.offer_accepted o ho hst
  obtain ⟨x, hx, hxid, hreq, p, hp, hpid, hpu⟩ := h.acceptance_offer a ha
  obtain rfl := RideOffer.eq_of_id hx ho (hxid.trans hid)
  obtain ⟨t, ht, hta⟩ := h.acceptance_trip a ha
  have hta := Trip.terms_eq.mp hta
  exact ⟨a, ha, hid, hreq.symm, t, ht, hta.2.1.trans hreq.symm, p, hp, hpid,
    hpu.trans hta.2.2.1.symm⟩

end Records

/-- No step of call `n` changed a table. -/
def ChangedNothing (cfg : Config) (ms : List RideMove) (n : Nat) : Prop :=
  ∀ k, ms[k]? = some (.advance n) →
    tablesOf (ridePool.run (rideSystem cfg) (ms.take (k + 1))).world =
      tablesOf (ridePool.run (rideSystem cfg) (ms.take k)).world

/-- What holds of the acceptances on one ride request after a run. -/
structure AcceptedOnce (cfg : Config) (ms : List RideMove) (rideRequestId : Id) : Prop where
  /-- At most one acceptance has committed. -/
  once : ((acceptances (ridePool.run (rideSystem cfg) ms).world.trace).map
    fun a => a.rideRequestId).count rideRequestId ≤ 1
  one_accepted : ∀ o ∈ (tablesOf (ridePool.run (rideSystem cfg) ms).world).rideOffers,
    ∀ q ∈ (tablesOf (ridePool.run (rideSystem cfg) ms).world).rideOffers,
      o.rideRequestId = rideRequestId → q.rideRequestId = rideRequestId →
      o.status = .accepted → q.status = .accepted → o = q
  accepted_trip : ∀ o ∈ (tablesOf (ridePool.run (rideSystem cfg) ms).world).rideOffers,
    o.rideRequestId = rideRequestId → o.status = .accepted →
      ∃ t ∈ (tablesOf (ridePool.run (rideSystem cfg) ms).world).trips,
        t.rideRequestId = rideRequestId ∧
          ∃ p ∈ (tablesOf (ridePool.run (rideSystem cfg) ms).world).driverProfiles,
            p.id = o.driverId ∧ p.userId = t.driverId
  /-- Whatever happens next, the trip keeps its parties and its fare. -/
  terms_fixed : ∀ t ∈ (tablesOf (ridePool.run (rideSystem cfg) ms).world).trips,
    t.rideRequestId = rideRequestId → ∀ ms',
      ∃ t' ∈ (tablesOf (ridePool.run (rideSystem cfg) (ms ++ ms')).world).trips,
        t'.terms = t.terms
  /-- The trip's rider owns the request, and had accepted at a fare its driver
  had submitted before. -/
  agreed : ∀ t ∈ (tablesOf (ridePool.run (rideSystem cfg) ms).world).trips,
    t.rideRequestId = rideRequestId →
      (∃ r ∈ (tablesOf (ridePool.run (rideSystem cfg) ms).world).rideRequests,
        r.id = rideRequestId ∧ r.riderId = t.riderId) ∧
      ∃ pre c post, (ridePool.run (rideSystem cfg) ms).world.trace = pre ++ c :: post ∧
        AcceptedAs pre c t
  /-- An acceptance stopped by a guard or a constraint changed no row. -/
  refused : ∀ n riderId offerId uuid e, (ridePool.run (rideSystem cfg) ms).running[n]? =
    some (.acceptOffer riderId offerId uuid, .fail e) → e ≠ .outage → ChangedNothing cfg ms n

section Run
variable (cfg : Config) (ms : List RideMove)

theorem recorded_run : Recorded (ridePool.run (rideSystem cfg) ms).world :=
  (ridePool_sound cfg ms).1

theorem evolves_run (ms' : List RideMove) :
    Evolves (ridePool.run (rideSystem cfg) ms).world
      (ridePool.run (rideSystem cfg) (ms ++ ms')).world := by
  rw [Pool.run_append]
  exact (ride_discipline cfg).rely_run (ridePool_sound cfg ms) ms'

/-- An acceptance that has thrown anything but an outage changed no row. -/
theorem changedNothing_of_fail {n : Nat} {riderId offerId uuid : Id} {e : ServiceError}
    (h : (ridePool.run (rideSystem cfg) ms).running[n]? =
      some (.acceptOffer riderId offerId uuid, .fail e)) (he : e ≠ .outage) :
    ChangedNothing cfg ms n := by
  have hcode : ∀ i, i = Invocation.acceptOffer riderId offerId uuid →
      Accepting cfg false (i.code cfg) := by
    rintro _ rfl
    exact acceptOffer_throws cfg riderId offerId uuid
  have hquiet := Call.ThrowsAfter.of_run hcode Backend.empty ms rfl h he
  intro k hk
  have hlt : k < ms.length := (List.getElem?_eq_some_iff.mp hk).1
  have htake : ms.take (k + 1) = ms.take k ++ [.advance n] := by
    rw [List.take_add_one, hk]
    rfl
  rw [htake, Pool.run_append]
  rcases Pool.step_world (rideSystem cfg) (ridePool.run (rideSystem cfg) (ms.take k)) (.advance n)
    with ⟨m, i, o, b, s, hc, hw⟩ | ⟨hw, -⟩
  · obtain rfl : n = m := by
      have := hc.move
      injection this
    have hev := evolves_run cfg (ms.take (k + 1)) (ms.drop (k + 1))
    rw [List.take_append_drop, htake, Pool.run_append] at hev
    rw [Pool.run_cons, Pool.run_nil, hw] at hev ⊢
    have hmem := executed_mono (mem_executed_commit _ n i o s) hev.trace
    exact (Backend.frame hc.effect).tables (hquiet o hmem)
  · rw [Pool.run_cons, Pool.run_nil, hw]

/-- Under any interleaving at most one acceptance per ride request commits, it
fixes the trip's terms, and the others leave no trace. -/
theorem acceptedOnce (rideRequestId : Id) : AcceptedOnce cfg ms rideRequestId := by
  have h := recorded_run cfg ms
  refine ⟨List.nodup_iff_count_le_one.mp h.acceptances_nodup rideRequestId,
    fun o ho q hq hor hqr host hqst => ?_, fun o ho hor host => ?_,
    fun t ht _ ms' => (evolves_run cfg ms ms').tables.trips t ht, fun t ht hreq => ?_,
    fun n riderId offerId uuid e hfail he => changedNothing_of_fail cfg ms hfail he⟩
  · obtain ⟨a, ha, hao, har, -⟩ := h.of_accepted ho host
    obtain ⟨b, hb, hbq, hbr, -⟩ := h.of_accepted hq hqst
    obtain rfl := h.acceptance_unique ha hb (by rw [har, hbr, hor, hqr])
    exact RideOffer.eq_of_id ho hq (hao.symm.trans hbq)
  · obtain ⟨-, -, -, -, t, ht, htr, hp⟩ := h.of_accepted ho host
    exact ⟨t, ht, htr.trans hor, hp⟩
  · obtain ⟨r, hr, hid, hrider⟩ := h.trip_request t ht
    exact ⟨⟨r, hr, hid.trans hreq, hrider⟩, h.trip_accepted t ht⟩

end Run

end Reedr
