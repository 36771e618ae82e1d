import Mathlib.Data.Set.Basic
import Reedr.Ride.Footprints
import Reedr.Ride.OfferDeadline

/-!
# What a worker leaves behind

A pending offer waits for its job only. Once the grace period is over, a worker
that gets around to every job of the queue, in whatever order and however often,
expires exactly the offers that are still pending, and moves nothing else.

## Implementation notes

The executions of the jobs are compared with the tables before the first of
them; what has been expired since is a set of ids that only grows.
-/

namespace Reedr
open Relational Interleaving

section Expires
open Classical

/-- The offer, expired if it is pending and among those in `ids`. -/
noncomputable def RideOffer.expiredIn (ids : Set Id) (o : RideOffer) : RideOffer :=
  if o.status = .pending ∧ o.id ∈ ids then { o with status := .expired } else o

theorem RideOffer.expiredIn_expiredIn (ids ids' : Set Id) (o : RideOffer) :
    (o.expiredIn ids).expiredIn ids' = o.expiredIn (ids ∪ ids') := by
  unfold expiredIn
  by_cases hst : o.status = .pending
  · by_cases hid : o.id ∈ ids
    · simp [hst, hid]
    · simp [hst, hid]
  · simp [hst]

/-- An offer that is pending afterwards has been left as it was. -/
theorem RideOffer.eq_of_expiredIn_pending {ids : Set Id} {o : RideOffer}
    (h : (o.expiredIn ids).status = .pending) : o.expiredIn ids = o := by
  unfold expiredIn at h ⊢
  split at h
  · cases h
  · next hnot => rw [if_neg hnot]

end Expires

/-- Some pending offers have expired, and nothing else has changed about rides. -/
structure RideTables.Expires (db db' : RideTables) : Prop where
  requests : db'.rideRequests = db.rideRequests
  trips : db'.trips = db.trips
  offers : ∃ ids, db.rideOffers.Rewrites (RideOffer.expiredIn ids) db'.rideOffers

namespace RideTables.Expires
variable {db db' db'' : RideTables}

theorem of_same (hr : db'.rideRequests = db.rideRequests) (ht : db'.trips = db.trips)
    (ho : db'.rideOffers = db.rideOffers) : db.Expires db' := by
  refine ⟨hr, ht, ∅, ?_⟩
  rw [ho]
  exact (Table.Rewrites.refl _).congr fun o => by simp [RideOffer.expiredIn]

theorem refl (db : RideTables) : db.Expires db := of_same rfl rfl rfl

theorem trans (h : db.Expires db') (h' : db'.Expires db'') : db.Expires db'' := by
  obtain ⟨ids, hids⟩ := h.offers
  obtain ⟨ids', hids'⟩ := h'.offers
  refine ⟨h'.requests.trans h.requests, h'.trips.trans h.trips, ids ∪ ids', ?_⟩
  exact (hids.comp hids').congr fun o => o.expiredIn_expiredIn ids ids'

/-- An offer that is still pending is one from before. -/
theorem pending_before (h : db.Expires db') {o : RideOffer} (ho : o ∈ db'.rideOffers)
    (hst : o.status = .pending) : o ∈ db.rideOffers := by
  obtain ⟨ids, hids⟩ := h.offers
  obtain ⟨q, hq, rfl⟩ := (hids o).mp ho
  rwa [RideOffer.eq_of_expiredIn_pending hst]

/-- When none is pending any more, all that were have expired. -/
theorem all (h : db.Expires db') (hnone : ∀ o ∈ db'.rideOffers, o.status ≠ .pending) :
    db.rideOffers.Rewrites
      (fun o => if o.status = .pending then { o with status := .expired } else o)
      db'.rideOffers := by
  obtain ⟨ids, hids⟩ := h.offers
  refine hids.congr_of_mem fun o ho => ?_
  have hst := hnone _ (hids.mem ho)
  unfold RideOffer.expiredIn at hst ⊢
  by_cases hpending : o.status = .pending
  · by_cases hid : o.id ∈ ids
    · rw [if_pos ⟨hpending, hid⟩, if_pos hpending]
    · rw [if_neg fun h => hid h.2] at hst
      exact absurd hpending hst
  · rw [if_neg fun h => hpending h.1, if_neg hpending]

end RideTables.Expires

section Calls
variable {cfg : Config} {n : Nat} {i : Invocation} {w : RideWorld}

private theorem expires_of_frame {o : Stmt} {b : o.Res} {s : Backend}
    (hx : (rideSystem cfg).exec o w.shared = .ok (b, s)) (ho : o.writesTables = false) :
    (tablesOf w).Expires s.tables :=
  (Backend.frame hx).tables ho ▸ .refl _

theorem expireIfStillPending_expires (offerId : Id) :
    (OffersService.expireIfStillPending offerId).Ends (rideSystem cfg).reliable n i
      (fun _ w' => (tablesOf w).Expires (tablesOf w')) w := by
  refine Call.Ends.reliable_bind (fun b s hx => ?_) fun _ hx => nomatch hx
  cases hx
  cases hfind : (tablesOf w).findOffer offerId with
  | none => exact .refl _
  | some offer =>
      obtain ⟨hoffer, hid, -⟩ := RideTables.findOffer_some hfind
      dsimp only
      split
      · next hpending =>
          refine Call.Ends.reliable_bind (fun _ s hx => ?_) fun e _ => .refl _
          have he := RideTables.expireOffer_effect
            (Backend.onTables_ok (fun db => db.expireOffer offerId) hx).1
          refine ⟨he.requests, he.trips, {offerId}, he.offers.congr_of_mem fun o ho => ?_⟩
          unfold expireOfferRow RideOffer.expiredIn
          by_cases hoid : o.id = offerId
          · -- It is still as it was read.
            obtain rfl := RideOffer.eq_of_id ho hoffer (hoid.trans hid.symm)
            rw [if_pos hoid, if_pos ⟨hpending, hoid⟩]
          · rw [if_neg hoid, if_neg fun h => hoid h.2]
      · exact .refl _

theorem process_expires (job : OfferExpiryJob) :
    (OfferExpiryProcessor.process job).Ends (rideSystem cfg).reliable n i
      (fun _ w' => (tablesOf w).Expires (tablesOf w')) w := by
  cases job with
  | expireOffer offerId =>
      refine Call.Ends.bind ((expireIfStillPending_expires offerId).mono ?_)
      rintro (e | result) w₁ h₁
      · exact h₁
      · cases result with
        | none => exact h₁
        | some result =>
            refine Call.Ends.reliable (fun _ s hx => ?_) fun _ _ => h₁
            exact h₁.trans (expires_of_frame hx rfl)
  | expireDriverPendingOffers driverProfileId =>
      refine Call.Ends.reliable_bind (fun b s hx => ?_) fun _ hx => nomatch hx
      cases hx
      cases (tablesOf w).findDriverProfile driverProfileId with
      | none => exact .refl _
      | some driver =>
          dsimp only
          split
          · exact .refl _
          · refine Call.Ends.reliable (fun _ s hx => ?_) fun _ _ => .refl _
            have he := RideTables.expireDriverOffers_effect
              (Backend.onTables_ok (fun db => db.expireDriverOffers driverProfileId) hx).1
            refine ⟨he.requests, he.trips,
              {id | ∃ o ∈ (tablesOf w).rideOffers, o.id = id ∧ o.driverId = driverProfileId},
              he.offers.congr_of_mem fun o ho => ?_⟩
            unfold expireDriverOfferRow RideOffer.expiredIn
            congr 1
            refine propext ⟨fun h => ⟨h.2, o, ho, rfl, h.1⟩, ?_⟩
            rintro ⟨hst, q, hq, hid, hdriver⟩
            obtain rfl := RideOffer.eq_of_id hq ho hid
            exact ⟨hdriver, hst⟩

theorem runJob_expires (jobId : String) :
    (OfferExpiryProcessor.runJob jobId).Ends (rideSystem cfg).reliable n i
      (fun _ w' => (tablesOf w).Expires (tablesOf w')) w := by
  refine Call.Ends.reliable_bind (fun job s hx => ?_) fun _ _ => .refl _
  have h := expires_of_frame hx rfl
  cases job with
  | none => exact h
  | some job =>
      refine Call.Ends.recover (Call.Ends.bind ((process_expires job.data).mono ?_))
      have settle {o : Stmt} {w₁ : RideWorld} (h₁ : (tablesOf w).Expires (tablesOf w₁))
          {b : o.Res} {s : Backend} (hx : (rideSystem cfg).exec o w₁.shared = .ok (b, s))
          (ho : o.writesTables = false) : (tablesOf w).Expires s.tables :=
        h₁.trans (expires_of_frame hx ho)
      rintro (e | _) w₁ h₁
      · exact Call.Ends.reliable (fun _ _ hx => settle (h.trans h₁) hx rfl) fun _ _ => h.trans h₁
      · refine Call.Ends.reliable (fun _ _ hx => settle (h.trans h₁) hx rfl) fun _ _ => ?_
        exact Call.Ends.reliable (fun _ _ hx => settle (h.trans h₁) hx rfl) fun _ _ => h.trans h₁

/-- No pending offer is left whose job has been executed when it was due. -/
theorem runJob_settles (h : Timed cfg w)
    (hdue : ∀ o ∈ (tablesOf w).rideOffers, o.status = .pending → Overdue cfg w o)
    (jobId : String) :
    (OfferExpiryProcessor.runJob jobId).Ends (rideSystem cfg).reliable n i
      (fun _ w' => ∀ o ∈ (tablesOf w').rideOffers, o.status = .pending →
        OffersService.offerJobId o.id ≠ jobId) w := by
  refine Call.Ends.reliable_bind (fun job s hx => ?_) fun e hx => ?_
  · cases job with
    | none =>
        have hfind := Backend.exec_takeJob_due hx
        obtain rfl := Backend.exec_takeJob_none hx
        rintro o ho hst rfl
        obtain ⟨j, hj, hdata, hstate, t, ht, hdueAt⟩ := h.armed o ho hst nofun
        obtain ⟨t', ht', hle⟩ := hdue o ho hst
        obtain rfl := Option.some.inj (ht.symm.trans ht')
        have hid := h.labelled j hj
        rw [hdata] at hid
        exact of_decide_eq_false (Table.find?_none hfind j hj) ⟨hid, hstate, hdueAt ▸ hle⟩
    | some job =>
        obtain ⟨hjob, hid, -⟩ := JobQueue.due?_some (Backend.exec_takeJob hx).1
        obtain rfl : jobId = job.data.storedAs := hid.symm.trans (h.labelled job hjob)
        refine Call.Ends.recover (Call.Ends.bind
          ((process_ends (h.takeJob hx) (h.overdue hx)).mono ?_))
        rintro _ w₁ ⟨rfl, -, hdone⟩
        have hdone : ∀ o ∈ (tablesOf w₁).rideOffers, o.status = .pending →
            OffersService.offerJobId o.id ≠ job.data.storedAs := fun o ho hst hc =>
          hdone o ho hst (OfferExpiryJob.storedAs_injective (a := .expireOffer o.id) hc).symm
        refine Call.Ends.reliable (fun _ s hx => ?_) fun _ hx => nomatch hx
        cases hx
        exact hdone
  · have hx : Backend.exec cfg (.takeJob jobId) w.shared = .error e := hx
    simp only [Backend.exec] at hx
    split at hx <;> cases hx

/-- Neither submissions nor the clock are moved by a job. -/
theorem runJob_still (jobId : String) :
    (OfferExpiryProcessor.runJob jobId).Ends (rideSystem cfg).reliable n i
      (fun _ w' => (∀ o, lastSubmission w'.trace o = lastSubmission w.trace o) ∧
        w'.shared.clock = w.shared.clock) w := by
  refine Call.Ends.reliable_of_uses
    (P := fun o : Stmt => o.submitsOffer = false ∧ o.passesTime = false) ?_
    (OfferExpiryProcessor.runJob_uses (fun _ => ⟨rfl, rfl⟩) (fun _ => ⟨rfl, rfl⟩)
      (fun _ => ⟨rfl, rfl⟩) (OfferExpiryProcessor.process_uses (fun _ => ⟨rfl, rfl⟩)
        (fun _ => ⟨rfl, rfl⟩) (fun _ _ _ => ⟨rfl, rfl⟩) (fun _ => ⟨rfl, rfl⟩)
        fun _ => ⟨rfl, rfl⟩) jobId) ⟨fun _ => rfl, rfl⟩
  rintro w₁ o b s ⟨hsub, htime⟩ ⟨hsame, hclock⟩ hx
  exact ⟨fun offer => (lastSubmission_unsubmitted hsub offer).trans (hsame offer),
    ((Backend.frame hx).clock htime).trans hclock⟩

end Calls

/-- What executions of the jobs `jobIds` have made of a world in which every
pending offer is overdue. -/
structure Drained (cfg : Config) (jobIds : List String) (w w' : RideWorld) : Prop where
  timed : Timed cfg w'
  overdue : ∀ o ∈ (tablesOf w').rideOffers, o.status = .pending → Overdue cfg w' o
  expires : (tablesOf w).Expires (tablesOf w')
  settled : ∀ o ∈ (tablesOf w').rideOffers, o.status = .pending →
    OffersService.offerJobId o.id ∉ jobIds

section Run
variable {cfg : Config}

theorem drained_serve {p : RidePool} (h : Timed cfg p.world)
    (hdue : ∀ o ∈ (tablesOf p.world).rideOffers, o.status = .pending → Overdue cfg p.world o)
    (jobId : String) :
    Drained cfg [jobId] p.world (p.serve (rideSystem cfg).reliable (.runJob jobId, [])).world := by
  have hexpires : (tablesOf p.world).Expires
      (tablesOf (p.serve (rideSystem cfg).reliable (.runJob jobId, [])).world) :=
    (runJob_expires jobId).eval []
  obtain ⟨hsame, hclock⟩ : (∀ o, lastSubmission
        (p.serve (rideSystem cfg).reliable (.runJob jobId, [])).world.trace o =
          lastSubmission p.world.trace o) ∧
      (p.serve (rideSystem cfg).reliable (.runJob jobId, [])).world.shared.clock =
        p.world.shared.clock :=
    (runJob_still jobId).eval []
  refine ⟨(runJob_ends h jobId).eval [], fun o ho hst => ?_, hexpires, fun o ho hst hmem => ?_⟩
  · obtain ⟨t, ht, hle⟩ := hdue o (hexpires.pending_before ho hst) hst
    exact ⟨t, (hsame o).trans ht, hclock ▸ hle⟩
  · exact (runJob_settles h hdue jobId).eval [] o ho hst (List.mem_singleton.mp hmem)

/-- One execution after another, each job leaves its offer settled. -/
theorem drained_serveAll {p : RidePool} (h : Timed cfg p.world)
    (hdue : ∀ o ∈ (tablesOf p.world).rideOffers, o.status = .pending → Overdue cfg p.world o)
    (jobIds : List String) :
    Drained cfg jobIds p.world
      (p.serveAll (rideSystem cfg).reliable (jobIds.map fun id => (.runJob id, []))).world := by
  induction jobIds generalizing p with
  | nil => exact ⟨h, hdue, .refl _, fun _ _ _ => List.not_mem_nil⟩
  | cons jobId rest ih =>
      have h₁ := drained_serve h hdue jobId
      have h₂ := ih h₁.timed h₁.overdue
      refine ⟨h₂.timed, h₂.overdue, h₁.expires.trans h₂.expires, fun o ho hst hmem => ?_⟩
      rcases List.mem_cons.mp hmem with rfl | hmem
      · exact h₁.settled o (h₂.expires.pending_before ho hst) hst (List.mem_singleton_self _)
      · exact h₂.settled o ho hst hmem

/-- No statement has been executed later than now. -/
theorem executed_before (calls : List {i : Invocation // i.viaQueue = true}) :
    ∀ c ∈ (servedInTurn cfg calls).world.trace,
      c.before.clock ≤ (servedInTurn cfg calls).world.shared.clock := by
  refine Pool.serveAll_invariant
    (K := fun w : RideWorld => ∀ c ∈ w.trace, c.before.clock ≤ w.shared.clock)
    (fun w n i hw => ?_) (fun c hc => absurd hc List.not_mem_nil) _
  refine Call.Ends.reliable_of_uses (fun w o b s _ hw hx c hc => ?_) (.any _) hw
  have hle : w.shared.clock ≤ s.clock := Backend.exec_clock_le hx
  rcases List.mem_append.mp hc with hc | hc
  · exact Nat.le_trans (hw c hc) hle
  · obtain rfl := List.mem_singleton.mp hc
    exact hle

/-- Every submission is over when a full grace period has passed since. -/
theorem overdue_elapsed (calls : List {i : Invocation // i.viaQueue = true}) {duration : Millis}
    (hduration : cfg.offerExpiryMs ≤ duration) :
    ∀ o ∈ (tablesOf (servedInTurn cfg calls).world).rideOffers, o.status = .pending →
      Overdue cfg ((servedInTurn cfg calls).serve (rideSystem cfg).reliable
        (.elapse duration, [])).world o := by
  intro o ho hst
  obtain ⟨-, -, -, -, t, ht, -⟩ := (timed_servedInTurn cfg calls).armed o ho hst nofun
  refine ⟨t, (lastSubmission_unsubmitted rfl o).trans ht, ?_⟩
  obtain ⟨c, hc, rfl⟩ := Option.map_eq_some_iff.mp ht
  have hle := executed_before calls c (List.mem_of_mem_filter (List.mem_of_getLast? hc))
  exact Nat.add_le_add hle hduration

end Run

/-- The worker's executions after the grace period, as calls of the pool. -/
theorem servedInTurn_append (cfg : Config) (calls : List {i : Invocation // i.viaQueue = true})
    (duration : Millis) (jobIds : List String) :
    servedInTurn cfg (calls ++ ⟨.elapse duration, rfl⟩ ::
        jobIds.map fun id => ⟨.runJob id, rfl⟩) =
      ((servedInTurn cfg calls).serve (rideSystem cfg).reliable (.elapse duration, [])).serveAll
        (rideSystem cfg).reliable (jobIds.map fun id => (.runJob id, [])) := by
  unfold servedInTurn
  rw [List.map_append, Pool.serveAll, List.foldl_append, List.map_cons, List.map_map]
  rfl

/-- After any whole calls that do not fail, let a grace period pass and a worker
get around to every job there is: exactly the offers that were pending have
expired, and no request and no trip has been touched. -/
theorem offers_drain (cfg : Config) (calls : List {i : Invocation // i.viaQueue = true})
    (duration : Millis) (hduration : cfg.offerExpiryMs ≤ duration) (jobIds : List String)
    (hall : ∀ j ∈ (servedInTurn cfg calls).world.shared.jobs, j.jobId ∈ jobIds) :
    let before := tablesOf (servedInTurn cfg calls).world
    let after := tablesOf (servedInTurn cfg (calls ++ ⟨.elapse duration, rfl⟩ ::
      jobIds.map fun id => ⟨.runJob id, rfl⟩)).world
    before.rideOffers.Rewrites
        (fun o => if o.status = .pending then { o with status := .expired } else o)
        after.rideOffers ∧
      after.rideRequests = before.rideRequests ∧ after.trips = before.trips := by
  have htimed := timed_servedInTurn cfg calls
  have helapsed : Timed cfg ((servedInTurn cfg calls).serve (rideSystem cfg).reliable
      (.elapse duration, [])).world := Call.Ends.eval (timed_call rfl htimed) []
  have h := drained_serveAll helapsed (overdue_elapsed calls hduration) jobIds
  intro before after
  have hafter := congrArg (fun p => tablesOf p.world)
    (servedInTurn_append cfg calls duration jobIds)
  have hexpires : before.Expires after := by
    rw [show after = _ from hafter]
    exact h.expires
  refine ⟨hexpires.all fun o ho hst => ?_, hexpires.requests, hexpires.trips⟩
  obtain ⟨j, hj, hdata, -⟩ := htimed.armed o (hexpires.pending_before ho hst) hst nofun
  have hid : j.jobId = OffersService.offerJobId o.id :=
    (htimed.labelled j hj).trans (congrArg OfferExpiryJob.storedAs hdata)
  refine h.settled o ?_ hst (hid ▸ hall j hj)
  rw [show after = _ from hafter] at ho
  exact ho

/-- A bid that has been made again, half a grace period after the first. -/
def bidTwice : List {i : Invocation // i.viaQueue = true} :=
  [⟨.verifyDriver "driver" "application" "profile", rfl⟩,
    ⟨.create "rider" ⟨6, 3, 7, 4, 1500⟩ "request", rfl⟩,
    ⟨.submitOffer "driver" "request" 1500 "offer", rfl⟩, ⟨.elapse 30000, rfl⟩,
    ⟨.submitOffer "driver" "request" 1400 "unused", rfl⟩]

theorem offers_drain_bidTwice :
    let before := tablesOf (servedInTurn .default bidTwice).world
    let after := tablesOf (servedInTurn .default (bidTwice ++ ⟨.elapse 60000, rfl⟩ ::
      ["offer-offer"].map fun id => ⟨.runJob id, rfl⟩)).world
    before.rideOffers.Rewrites
        (fun o => if o.status = .pending then { o with status := .expired } else o)
        after.rideOffers ∧
      after.rideRequests = before.rideRequests ∧ after.trips = before.trips :=
  offers_drain .default bidTwice 60000 (by decide) ["offer-offer"] (by decide +kernel)

end Reedr
