import Reedr.Ride.Evolution
import Reedr.Ride.ExpiryQueue

/-!
# Offer rows and their expiry jobs

The offer row and its expiry job live in two stores. While a call is at work on
one offer or one job the two may disagree on that one only, so the invariant
has a parameter: what the call in progress is about.
-/

namespace Reedr
open Relational Interleaving

/-- Statements that submit an offer. -/
def Stmt.submitsOffer : Stmt → Bool
  | .upsertOffer _ _ _ _ => true
  | _ => false

/-- The statement submits the offer, for the first time or again. -/
def RideOffer.submittedBy (o : RideOffer) : Stmt → Bool
  | .upsertOffer rideRequestId driverId _ _ =>
      o.rideRequestId = rideRequestId ∧ o.driverId = driverId
  | _ => false

/-- The time of the offer's most recent submission. -/
def lastSubmission (trace : List (Commit rideSignature Backend Invocation)) (o : RideOffer) :
    Option Millis :=
  ((trace.filter fun c => o.submittedBy c.op).getLast?).map fun c => c.before.clock

theorem lastSubmission_commit (w : RideWorld) (n : Nat) (i : Invocation) (stmt : Stmt)
    (s : Backend) (o : RideOffer) : lastSubmission (w.commit n i stmt s).trace o =
      if o.submittedBy stmt then some w.shared.clock else lastSubmission w.trace o := by
  by_cases h : o.submittedBy stmt = true <;> simp [lastSubmission, h]

/-- Every other statement leaves the submissions as they were. -/
theorem lastSubmission_unsubmitted {w : RideWorld} {n : Nat} {i : Invocation} {stmt : Stmt}
    {s : Backend} (hsub : stmt.submitsOffer = false) (o : RideOffer) :
    lastSubmission (w.commit n i stmt s).trace o = lastSubmission w.trace o := by
  rw [lastSubmission_commit, if_neg]
  unfold RideOffer.submittedBy
  split
  · cases hsub
  · exact Bool.false_ne_true

theorem lastSubmission_congr {o q : RideOffer} (h : o.identity = q.identity)
    (trace : List (Commit rideSignature Backend Invocation)) :
    lastSubmission trace o = lastSubmission trace q := by
  obtain ⟨-, hr, hd⟩ := RideOffer.identity_eq.mp h
  have hsub : (fun c : Commit rideSignature Backend Invocation => o.submittedBy c.op) =
      fun c => q.submittedBy c.op := by
    funext c
    unfold RideOffer.submittedBy
    split
    · rw [hr, hd]
    · rfl
  rw [lastSubmission, lastSubmission, hsub]

/-- The offer has been submitted and its grace period is over. -/
def Overdue (cfg : Config) (w : RideWorld) (o : RideOffer) : Prop :=
  ∃ t, lastSubmission w.trace o = some t ∧ t + cfg.offerExpiryMs ≤ w.shared.clock

/-- An offer is expired by its job only when it is overdue. -/
def ExpiresOverdue (cfg : Config) (w : RideWorld) (_ : Invocation) : Stmt → Prop
  | .expireOffer offerId => ∀ o ∈ (tablesOf w).rideOffers, o.id = offerId → Overdue cfg w o
  | _ => True

/-- The offer's job waits for the end of the grace period of its last submission. -/
def Armed (cfg : Config) (w : RideWorld) (o : RideOffer) : Prop :=
  ∃ j ∈ w.shared.jobs, j.data = .expireOffer o.id ∧ j.state = .delayed ∧
    ∃ t, lastSubmission w.trace o = some t ∧ j.dueAt = t + cfg.offerExpiryMs

/-- Rows and jobs agree on every offer, but possibly on the one at work. -/
structure TimedBut (cfg : Config) (atWork : Option OfferExpiryJob) (w : RideWorld) : Prop where
  labelled : w.shared.jobs.Labelled
  idle : ∀ j ∈ w.shared.jobs, j.state = .active → some j.data = atWork
  driver : ∀ o ∈ (tablesOf w).rideOffers, ∃ p ∈ (tablesOf w).driverProfiles, p.id = o.driverId
  armed : ∀ o ∈ (tablesOf w).rideOffers, o.status = .pending →
    some (.expireOffer o.id) ≠ atWork → Armed cfg w o
  punctual : w.AllExecuted (ExpiresOverdue cfg)

/-- Statements that keep this agreement whatever was read before. -/
def Stmt.KeepsTime : Stmt → Prop
  | .upsertOffer _ _ _ _ | .expireOffer _ | .removeJob _ | .takeJob _ | .completeJob _
  | .retryJob _ => False
  | .addJob data _ jobId => jobId = data.storedAs
  | _ => True

/-- Rows and jobs agree, and no job is being executed. -/
abbrev Timed (cfg : Config) (w : RideWorld) : Prop := TimedBut cfg none w

section Offers
variable {db db' : RideTables} {o : Stmt}

/-- A submission apart, an offer that is pending has been so before. -/
theorem Backend.Wrote.offers_back (h : Backend.Wrote o db db')
    (ho : o.submitsOffer = false) :
    ∀ x ∈ db'.rideOffers, ∃ y ∈ db.rideOffers,
      x.identity = y.identity ∧ (x.status = .pending → y.status = .pending) := by
  have same (heq : db'.rideOffers = db.rideOffers) : ∀ x ∈ db'.rideOffers, ∃ y ∈ db.rideOffers,
      x.identity = y.identity ∧ (x.status = .pending → y.status = .pending) :=
    fun x hx => ⟨x, heq ▸ hx, rfl, id⟩
  have rewritten {f : RideOffer → RideOffer} (hf : db.rideOffers.Rewrites f db'.rideOffers)
      (hid : ∀ y, (f y).identity = y.identity)
      (hst : ∀ y, (f y).status = .pending → y.status = .pending) : ∀ x ∈ db'.rideOffers,
      ∃ y ∈ db.rideOffers,
        x.identity = y.identity ∧ (x.status = .pending → y.status = .pending) := by
    intro x hx
    obtain ⟨y, hy, rfl⟩ := (hf x).mp hx
    exact ⟨y, hy, hid y, hst y⟩
  cases h with
  | nothing _ => exact same rfl
  | createDriverProfile he => exact same he.offers
  | updateDriverProfile _ he => exact same he.offers
  | createRideRequest he => exact same he.offers
  | upsertOffer he => cases ho
  | startBatch he => exact same he.offers
  | completeBatch he => exact same he.offers
  | @acceptBatch a _ _ _ he =>
      apply rewritten he.offers a.onOffer_identity
      intro y hst
      unfold Acceptance.onOffer at hst
      split_ifs at hst
      exact hst
  | expireOffer he =>
      refine rewritten he.offers (fun y => (expireOfferRow_continues _ y).identity) fun y hst => ?_
      unfold expireOfferRow at hst
      split_ifs at hst
      exact hst
  | expireDriverOffers he =>
      refine rewritten he.offers (fun y => (expireDriverOfferRow_continues _ y).identity)
        fun y hst => ?_
      unfold expireDriverOfferRow at hst
      split_ifs at hst
      exact hst
  | @cancelBatch c _ _ _ he =>
      refine rewritten he.offers (fun y => (c.onOffer_continues y).identity) fun y hst => ?_
      unfold Cancellation.onOffer at hst
      split_ifs at hst
      exact hst

end Offers

namespace TimedBut
variable {cfg : Config} {w : RideWorld} {n : Nat} {i : Invocation} {o : Stmt} {b : o.Res}
  {s : Backend} {d d' : Option OfferExpiryJob}

/-- A statement that submits nothing keeps the agreement for the offers whose
jobs it keeps; those no longer at work must not be pending. -/
private theorem commit (h : TimedBut cfg d w) (hx : (rideSystem cfg).exec o w.shared = .ok (b, s))
    (hsub : o.submitsOffer = false) (hdue : ExpiresOverdue cfg w i o)
    (hlabelled : s.jobs.Labelled) (hidle : ∀ j ∈ s.jobs, j.state = .active → some j.data = d')
    (hwork : ∀ x ∈ s.tables.rideOffers, x.status = .pending → some (.expireOffer x.id) ≠ d' →
      some (.expireOffer x.id) ≠ d)
    (hkeep : ∀ j ∈ w.shared.jobs, ∀ x ∈ s.tables.rideOffers, x.status = .pending →
      j.data = .expireOffer x.id → j.state = .delayed → some j.data ≠ d' → j ∈ s.jobs) :
    TimedBut cfg d' (w.commit n i o s) := by
  have hwrote : Backend.Wrote o w.shared.tables s.tables := Backend.exec_wrote hx
  have hback := hwrote.offers_back hsub
  refine ⟨hlabelled, hidle, fun x hxm => ?_, fun x hxm hst hne => ?_,
    World.allExecuted_commit.mpr ⟨h.punctual, hdue⟩⟩
  · obtain ⟨y, hy, hxy, -⟩ := hback x hxm
    obtain ⟨p, hp, hpid⟩ := h.driver y hy
    obtain ⟨p', hp', hpp⟩ := (RideTables.Grows.of_wrote hwrote).profiles p hp
    refine ⟨p', hp', ?_⟩
    rw [(DriverProfile.identity_eq.mp hpp).1, hpid, (RideOffer.identity_eq.mp hxy).2.2]
  · obtain ⟨y, hy, hxy, hpend⟩ := hback x hxm
    have hid : x.id = y.id := (RideOffer.identity_eq.mp hxy).1
    obtain ⟨j, hj, hdata, hstate, t, ht, hdueAt⟩ :=
      h.armed y hy (hpend hst) (hid ▸ hwork x hxm hst hne)
    rw [← hid] at hdata
    refine ⟨j, hkeep j hj x hxm hst hdata hstate (hdata ▸ hne), hdata, hstate, t, ?_, hdueAt⟩
    rw [lastSubmission_congr hxy, lastSubmission_unsubmitted hsub, ht]

/-- Statements that neither submit an offer nor touch the queue. -/
theorem rows (h : TimedBut cfg d w) (hx : (rideSystem cfg).exec o w.shared = .ok (b, s))
    (hsub : o.submitsOffer = false) (hq : o.writesQueue = false)
    (hdue : ExpiresOverdue cfg w i o) : TimedBut cfg d (w.commit n i o s) := by
  have hjobs := (Backend.frame hx).jobs hq
  exact h.commit hx hsub hdue (hjobs ▸ h.labelled) (hjobs ▸ h.idle) (fun _ _ _ hne => hne)
    fun j hj _ _ _ _ _ _ => hjobs ▸ hj

theorem addJob (h : TimedBut cfg d w) {data : OfferExpiryJob} {delay : Millis}
    (hx : (rideSystem cfg).exec (.addJob data delay data.storedAs) w.shared =
      .ok ((), s)) :
    TimedBut cfg d (w.commit n i (.addJob data delay data.storedAs) s) := by
  have hlabelled := h.labelled.exec hx rfl
  cases hx
  refine h.commit rfl rfl trivial hlabelled (fun j hj hst => ?_) (fun _ _ _ hne => hne)
    fun j hj _ _ _ _ _ _ => JobQueue.mem_add.mpr (Or.inl hj)
  rcases JobQueue.mem_add.mp hj with hj | ⟨rfl, -⟩
  · exact h.idle j hj hst
  · cases hst

theorem keeps (h : TimedBut cfg d w) (hx : (rideSystem cfg).exec o w.shared = .ok (b, s))
    (ho : o.KeepsTime) : TimedBut cfg d (w.commit n i o s) := by
  cases o with
  | addJob data delay jobId =>
      obtain rfl := ho
      exact h.addJob hx
  | _ => first | exact h.rows hx rfl rfl trivial | exact ho.elim

/-- The job of an offer that is not pending, or at work, may go. -/
theorem removeJob (h : TimedBut cfg d w) (data : OfferExpiryJob)
    (hx : (rideSystem cfg).exec (.removeJob data.storedAs) w.shared = .ok ((), s))
    (hfree : ∀ x ∈ (tablesOf w).rideOffers, x.status = .pending → data = .expireOffer x.id →
      some data = d) : TimedBut cfg d (w.commit n i (.removeJob data.storedAs) s) := by
  obtain ⟨hremove, htables, -⟩ := Backend.exec_removeJob hx
  have hmem {x : Job} := JobQueue.mem_remove hremove (x := x)
  refine h.commit hx rfl trivial (h.labelled.exec hx trivial)
    (fun j hj => h.idle j (hmem.mp hj).1) (fun _ _ _ hne => hne) ?_
  intro j hj x hxm hst hdata _ hne
  refine hmem.mpr ⟨hj, fun hid => hne ?_⟩
  obtain rfl := (h.labelled.jobId_iff hj data).mp hid
  rw [htables] at hxm
  exact hfree x hxm hst hdata

/-- A job that is taken is at work. -/
theorem takeJob (h : Timed cfg w) {jobId : String} {job : Job}
    (hx : (rideSystem cfg).exec (.takeJob jobId) w.shared = .ok (some job, s)) :
    TimedBut cfg (some job.data) (w.commit n i (.takeJob jobId) s) := by
  obtain ⟨hdue, hjobs, -⟩ := Backend.exec_takeJob hx
  obtain ⟨hjob, hid, -⟩ := JobQueue.due?_some hdue
  have hmoves := JobQueue.activate_moves (q := w.shared.jobs) jobId
  rw [← hjobs] at hmoves
  refine h.commit hx rfl trivial (h.labelled.exec hx trivial) (fun j hj hst => ?_)
    (fun _ _ _ _ => nofun) fun k hk x _ _ _ _ hne => (hmoves.mem k).mpr ⟨k, hk, ?_⟩
  · obtain ⟨k, hk, rfl⟩ := (hmoves.mem j).mp hj
    split at hst
    · next hkid =>
        obtain rfl := Job.eq_of_jobId hk hjob (hkid.trans hid.symm)
        simp only [if_pos hkid]
    · exact nomatch h.idle k hk hst
  · rw [if_neg fun hkid => hne ?_]
    rw [Job.eq_of_jobId hk hjob (hkid.trans hid.symm)]

/-- A worker that finds no due job takes none. -/
theorem takeNone (h : Timed cfg w) {jobId : String}
    (hx : (rideSystem cfg).exec (.takeJob jobId) w.shared = .ok (none, s)) :
    Timed cfg (w.commit n i (.takeJob jobId) s) := by
  obtain rfl := Backend.exec_takeJob_none hx
  exact h.commit hx rfl trivial h.labelled h.idle (fun _ _ _ hne => hne)
    fun j hj _ _ _ _ _ _ => hj

/-- The job that is taken is the one its offer was armed with. -/
theorem overdue (h : Timed cfg w) {jobId : String} {job : Job}
    (hx : (rideSystem cfg).exec (.takeJob jobId) w.shared = .ok (some job, s)) :
    ∀ x ∈ s.tables.rideOffers, x.status = .pending → job.data = .expireOffer x.id →
      Overdue cfg (w.commit n i (.takeJob jobId) s) x := by
  intro x hxm hst hdata
  obtain ⟨hdue, -, htables⟩ := Backend.exec_takeJob hx
  obtain ⟨hjob, -, -, hdue⟩ := JobQueue.due?_some hdue
  rw [htables] at hxm
  obtain ⟨j, hj, hjdata, -, t, ht, hjdue⟩ := h.armed x hxm hst nofun
  obtain rfl := h.labelled.eq_of_data hj hjob (hjdata.trans hdata.symm)
  refine ⟨t, (lastSubmission_unsubmitted rfl x).trans ht, ?_⟩
  rw [World.commit_shared, (Backend.frame hx).clock rfl, ← hjdue]
  exact hdue

/-- Completing the job at work ends the work on it, its offer not being pending. -/
theorem completeJob {data : OfferExpiryJob} (h : TimedBut cfg (some data) w)
    (hx : (rideSystem cfg).exec (.completeJob data.storedAs) w.shared = .ok ((), s))
    (hdone : ∀ x ∈ (tablesOf w).rideOffers, x.status = .pending → data ≠ .expireOffer x.id) :
    Timed cfg (w.commit n i (.completeJob data.storedAs) s) := by
  have hlabelled := h.labelled.exec hx trivial
  cases hx
  have hmoves := JobQueue.complete_moves (q := w.shared.jobs) data.storedAs
  refine h.commit rfl rfl trivial hlabelled (fun j hj hst => ?_)
    (fun x hxm hst _ hc => hdone x hxm hst (Option.some.inj hc).symm)
    fun k hk x hxm hst hdata _ _ => (hmoves.mem k).mpr ⟨k, hk, ?_⟩
  · obtain ⟨k, hk, rfl⟩ := (hmoves.mem j).mp hj
    split at hst
    · cases hst
    · next hkid =>
        exact absurd ((h.labelled.jobId_iff hk data).mpr (Option.some.inj (h.idle k hk hst))) hkid
  · rw [if_neg fun hkid => hdone x hxm hst ?_]
    rw [← hdata, (h.labelled.jobId_iff hk data).mp hkid]

/-- A submission puts its offer to work and leaves the others' jobs right. -/
theorem upsertOffer (h : Timed cfg w) {rideRequestId driverId uuid : Id} {fare : Fare}
    {offer : RideOffer} (hdriver : ∃ p ∈ (tablesOf w).driverProfiles, p.id = driverId)
    (hx : (rideSystem cfg).exec (.upsertOffer rideRequestId driverId fare uuid) w.shared =
      .ok (offer, s)) :
    TimedBut cfg (some (.expireOffer offer.id))
      (w.commit n i (.upsertOffer rideRequestId driverId fare uuid) s) := by
  have hjobs := (Backend.frame hx).jobs rfl
  have heffect := RideTables.upsertOffer_effect (Backend.onTables_ok
    (fun db => db.upsertOffer rideRequestId driverId fare uuid) hx).1
  refine ⟨hjobs ▸ h.labelled, fun j hj hst => ?_, fun x hxm => ?_, fun x hxm hst hne => ?_,
    World.allExecuted_commit.mpr ⟨h.punctual, trivial⟩⟩
  · rw [World.commit_shared, hjobs] at hj
    exact nomatch h.idle j hj hst
  · have hprofile : ∃ p ∈ (tablesOf w).driverProfiles, p.id = x.driverId := by
      rcases heffect.split x hxm with ⟨hold, -⟩ | rfl
      · exact h.driver x hold
      · exact heffect.result_on.2.symm ▸ hdriver
    obtain ⟨p, hp, hpid⟩ := hprofile
    exact ⟨p, heffect.profiles.symm ▸ hp, hpid⟩
  · rcases heffect.split x hxm with ⟨hold, hnot⟩ | rfl
    · obtain ⟨j, hj, hdata, hstate, t, ht, hdueAt⟩ := h.armed x hold hst nofun
      refine ⟨j, hjobs ▸ hj, hdata, hstate, t, ?_, hdueAt⟩
      rw [lastSubmission_commit, if_neg, ht]
      simpa [RideOffer.submittedBy, RideOffer.isOn] using hnot
    · exact absurd rfl hne

/-- The work on an offer ends when its job is armed and none is being executed. -/
theorem settle {offerId : Id} (h : TimedBut cfg (some (.expireOffer offerId)) w)
    (hidle : ∀ j ∈ w.shared.jobs, j.state ≠ .active)
    (harmed : ∀ x ∈ (tablesOf w).rideOffers, x.id = offerId → Armed cfg w x) : Timed cfg w := by
  refine ⟨h.labelled, fun j hj hst => absurd hst (hidle j hj), h.driver, fun x hx hst _ => ?_,
    h.punctual⟩
  by_cases hid : x.id = offerId
  · exact harmed x hx hid
  · exact h.armed x hx hst fun hc => hid (by cases hc; rfl)

end TimedBut

end Reedr
