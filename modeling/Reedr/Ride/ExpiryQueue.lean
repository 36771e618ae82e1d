import Reedr.Ride.Footprints

/-!
# Job ids and what they stand for

An expiry job is added under an id made of its name and the row it is for, and
nothing ever renames a job, so looking a job up by its id is looking it up by
what it is to do.
-/

namespace Reedr
open Relational Interleaving

/-- The `jobId` a job is added under. -/
def OfferExpiryJob.storedAs : OfferExpiryJob → String
  | .expireOffer offerId => OffersService.offerJobId offerId
  | .expireDriverPendingOffers driverProfileId => OffersService.driverJobId driverProfileId

private theorem offer_ne_driver (a b : String) : "offer-" ++ a ≠ "driver-disconnect-" ++ b := by
  intro h
  have hhead := congrArg (fun jobId => jobId.toList.head?) h
  simp [String.toList_append] at hhead

private theorem offerJobId_ne_driverJobId (offerId driverProfileId : Id) :
    OffersService.offerJobId offerId ≠ OffersService.driverJobId driverProfileId :=
  offer_ne_driver offerId driverProfileId

/-- Neither two rows nor two job names share an id. -/
theorem OfferExpiryJob.storedAs_injective {a b : OfferExpiryJob} (h : a.storedAs = b.storedAs) :
    a = b := by
  cases a with
  | expireOffer offerId =>
      cases b with
      | expireOffer offerId' => rw [(String.append_right_inj "offer-").mp h]
      | expireDriverPendingOffers driverProfileId =>
          exact absurd h (offerJobId_ne_driverJobId offerId driverProfileId)
  | expireDriverPendingOffers driverProfileId =>
      cases b with
      | expireOffer offerId => exact absurd h.symm (offerJobId_ne_driverJobId offerId _)
      | expireDriverPendingOffers driverProfileId' =>
          rw [(String.append_right_inj "driver-disconnect-").mp h]

/-- Every job is stored under the id of its data. -/
def JobQueue.Labelled (q : JobQueue) : Prop := ∀ j ∈ q, j.jobId = j.data.storedAs

/-- A job is added under the id of its data. -/
def Stmt.Labelled : Stmt → Prop
  | .addJob data _ jobId => jobId = data.storedAs
  | _ => True

namespace JobQueue
variable {q q' : JobQueue}

/-- In a labelled queue a job is determined by what it is to do. -/
theorem Labelled.eq_of_data (hq : q.Labelled) {j k : Job} (hj : j ∈ q) (hk : k ∈ q)
    (h : j.data = k.data) : j = k :=
  Job.eq_of_jobId hj hk (by rw [hq j hj, hq k hk, h])

theorem Labelled.jobId_iff (hq : q.Labelled) {j : Job} (hj : j ∈ q) (data : OfferExpiryJob) :
    j.jobId = data.storedAs ↔ j.data = data := by
  rw [hq j hj]
  exact ⟨OfferExpiryJob.storedAs_injective, congrArg _⟩

theorem Labelled.add (hq : q.Labelled) {j : Job} (hj : j.jobId = j.data.storedAs) :
    (add q j).Labelled := by
  intro x hx
  rcases mem_add.mp hx with hx | ⟨rfl, -⟩
  · exact hq x hx
  · exact hj

theorem Labelled.remove (hq : q.Labelled) {jobId : String} (h : JobQueue.remove q jobId = some q') :
    q'.Labelled :=
  fun x hx => hq x ((mem_remove h).mp hx).1

theorem Labelled.moves (hq : q.Labelled) {jobId : String} {f : Job → Job}
    (h : Moves jobId f q q') : q'.Labelled := by
  intro x hx
  obtain ⟨j, hj, rfl⟩ := (h.mem x).mp hx
  split
  · rw [h.jobId, h.data, hq j hj]
  · exact hq j hj

end JobQueue

section Exec
variable {cfg : Config} {s s' : Backend} {o : Stmt} {b : o.Res}

theorem Backend.exec_removeJob {jobId : String}
    (h : (rideSystem cfg).exec (.removeJob jobId) s = .ok ((), s')) :
    JobQueue.remove s.jobs jobId = some s'.jobs ∧ s'.tables = s.tables ∧ s'.clock = s.clock := by
  have h : exec cfg (.removeJob jobId) s = .ok ((), s') := h
  simp only [exec] at h
  split at h
  · next jobs hjobs =>
      cases h
      exact ⟨hjobs, rfl, rfl⟩
  · cases h

theorem Backend.exec_takeJob {jobId : String} {job : Job}
    (h : (rideSystem cfg).exec (.takeJob jobId) s = .ok (some job, s')) :
    JobQueue.due? s.jobs jobId s.clock = some job ∧ s'.jobs = JobQueue.activate s.jobs jobId ∧
      s'.tables = s.tables := by
  have h : exec cfg (.takeJob jobId) s = .ok (some job, s') := h
  simp only [exec] at h
  split at h
  · next j hj =>
      cases h
      exact ⟨hj, rfl, rfl⟩
  · cases h

theorem Backend.exec_takeJob_none {jobId : String}
    (h : (rideSystem cfg).exec (.takeJob jobId) s = .ok (none, s')) : s' = s := by
  have h : exec cfg (.takeJob jobId) s = .ok (none, s') := h
  simp only [exec] at h
  split at h <;> cases h
  rfl

/-- A worker that is given no job finds none due. -/
theorem Backend.exec_takeJob_due {jobId : String}
    (h : (rideSystem cfg).exec (.takeJob jobId) s = .ok (none, s')) :
    JobQueue.due? s.jobs jobId s.clock = none := by
  have h : exec cfg (.takeJob jobId) s = .ok (none, s') := h
  simp only [exec] at h
  split at h
  · cases h
  · next hnone => exact hnone

theorem JobQueue.Labelled.exec (hq : s.jobs.Labelled)
    (h : (rideSystem cfg).exec o s = .ok (b, s')) (ho : o.Labelled) : s'.jobs.Labelled := by
  have hx : Backend.exec cfg o s = .ok (b, s') := h
  cases o with
  | addJob data delay jobId =>
      cases hx
      exact hq.add ho
  | removeJob jobId =>
      simp only [Backend.exec] at hx
      split at hx
      · next jobs hjobs =>
          cases hx
          exact hq.remove hjobs
      · cases hx
  | takeJob jobId =>
      simp only [Backend.exec] at hx
      split at hx
      all_goals cases hx
      · exact hq.moves (JobQueue.activate_moves jobId)
      · exact hq
  | completeJob jobId =>
      cases hx
      exact hq.moves (JobQueue.complete_moves jobId)
  | retryJob jobId =>
      cases hx
      exact hq.moves (JobQueue.retry_moves jobId s.clock)
  | _ =>
      rw [(Backend.frame h).jobs rfl]
      exact hq

end Exec

end Reedr
