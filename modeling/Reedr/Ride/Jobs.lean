import Mathlib.Algebra.Group.Nat.Defs
import Reedr.Schema

/-!
# The offer-expiry queue

A store of delayed jobs addressed by their job id, with the documented
behaviour of BullMQ: adding a job under the id of a stored one adds nothing,
finished jobs stay stored because no job is added with `removeOnComplete` or
`removeOnFail`, and a job that is being executed cannot be removed.
-/

namespace Reedr
open Relational

/-- The name of a job together with its data. -/
inductive OfferExpiryJob where
  | expireOffer (offerId : Id)
  | expireDriverPendingOffers (driverProfileId : Id)
  deriving DecidableEq, Repr

inductive JobState where
  | delayed
  | active
  | completed
  | failed
  deriving DecidableEq, Repr

structure Job where
  jobId : String
  data : OfferExpiryJob
  dueAt : Millis
  attemptsMade : Nat := 0
  state : JobState := .delayed
  deriving DecidableEq, Repr

instance : Keyed Job where
  Key := String
  decEq := inferInstance
  keys j := [j.jobId]

theorem Job.eq_of_jobId {t : Table Job} {a b : Job} (ha : a ∈ t) (hb : b ∈ t)
    (h : a.jobId = b.jobId) : a = b :=
  Table.eq_of_key a.jobId ha hb (by simp [Keyed.keys]) (by simp [Keyed.keys, h])

/-- A job that has neither completed nor exhausted its attempts. -/
def Job.unfinished (j : Job) : Prop := j.state = .delayed ∨ j.state = .active

instance (j : Job) : Decidable j.unfinished := inferInstanceAs (Decidable (_ ∨ _))

/-- `attempts` of `JOB_RETRY_OPTIONS`. -/
def jobAttempts : Nat := 3

/-- The delay before retry number `attemptsMade`, by the exponential `backoff`
of `JOB_RETRY_OPTIONS`. -/
def jobBackoff (attemptsMade : Nat) : Millis := 2000 * 2 ^ (attemptsMade - 1)

/-- A failed attempt is retried after its backoff until the attempts are used up. -/
def Job.retried (now : Millis) (j : Job) : Job :=
  let attemptsMade := j.attemptsMade + 1
  if attemptsMade < jobAttempts then
    { j with attemptsMade, state := .delayed, dueAt := now + jobBackoff attemptsMade }
  else { j with attemptsMade, state := .failed }

theorem Job.retried_jobId (now : Millis) (j : Job) : (j.retried now).jobId = j.jobId := by
  unfold retried
  dsimp only
  split <;> rfl

theorem Job.retried_data (now : Millis) (j : Job) : (j.retried now).data = j.data := by
  unfold retried
  dsimp only
  split <;> rfl

abbrev JobQueue := Table Job

namespace JobQueue

/-- `Queue.add` with a `jobId`. -/
def add (q : JobQueue) (j : Job) : JobQueue :=
  match q.create j with
  | .ok q' => q'
  | .error _ => q

/-- `Queue.getJob`. -/
def getJob (q : JobQueue) (jobId : String) : Option Job := q.find? fun j => j.jobId = jobId

/-- `Job.remove`, refused while the job is locked by the worker executing it. -/
def remove (q : JobQueue) (jobId : String) : Option JobQueue :=
  if ∃ j ∈ q, j.jobId = jobId ∧ j.state = .active then none
  else some (q.delete fun j => j.jobId = jobId)

/-- The job a worker may start at `now`: delayed and due. -/
def due? (q : JobQueue) (jobId : String) (now : Millis) : Option Job :=
  q.find? fun j => j.jobId = jobId ∧ j.state = .delayed ∧ j.dueAt ≤ now

private def modifyJob (q : JobQueue) (jobId : String) (f : Job → Job)
    (hf : ∀ j, (f j).jobId = j.jobId) : JobQueue :=
  q.modify (fun j => j.jobId = jobId) f fun j => by simp [Keyed.keys, hf]

/-- The worker locks the job for the time of its execution. -/
def activate (q : JobQueue) (jobId : String) : JobQueue :=
  modifyJob q jobId (fun j => { j with state := .active }) fun _ => rfl

def complete (q : JobQueue) (jobId : String) : JobQueue :=
  modifyJob q jobId (fun j => { j with state := .completed }) fun _ => rfl

def retry (q : JobQueue) (jobId : String) (now : Millis) : JobQueue :=
  modifyJob q jobId (Job.retried now) (Job.retried_jobId now)

variable {q : JobQueue}

/-- Adding under a free id stores the job; under a taken one it does nothing. -/
theorem mem_add {j x : Job} : x ∈ add q j ↔ x ∈ q ∨ (x = j ∧ ∀ y ∈ q, y.jobId ≠ j.jobId) := by
  have hclash (y : Job) : Clash y j ↔ y.jobId = j.jobId := by
    simp [Clash, Keyed.keys, eq_comm]
  unfold add
  cases h : q.create j with
  | ok q' =>
      have hfree : ∀ y ∈ q, y.jobId ≠ j.jobId := fun y hy hc =>
        Table.not_clash_of_create h y hy ((hclash y).mpr hc)
      simp only [Table.mem_create h]
      exact ⟨fun hx => hx.imp id fun he => ⟨he, hfree⟩, fun hx => hx.imp id And.left⟩
  | error e =>
      refine ⟨Or.inl, fun hx => hx.elim id ?_⟩
      rintro ⟨-, hfree⟩
      obtain ⟨q', hq'⟩ := Table.create_eq_ok fun y hy hc => hfree y hy ((hclash y).mp hc)
      rw [hq'] at h
      cases h

theorem getJob_some {jobId : String} {j : Job} (h : getJob q jobId = some j) :
    j ∈ q ∧ j.jobId = jobId := by
  obtain ⟨hj, hid⟩ := Table.find?_some h
  exact ⟨hj, by simpa using hid⟩

theorem getJob_none {jobId : String} (h : getJob q jobId = none) :
    ∀ j ∈ q, j.jobId ≠ jobId := by
  intro j hj
  simpa using Table.find?_none h j hj

theorem due?_some {jobId : String} {now : Millis} {j : Job} (h : due? q jobId now = some j) :
    j ∈ q ∧ j.jobId = jobId ∧ j.state = .delayed ∧ j.dueAt ≤ now := by
  obtain ⟨hj, hdue⟩ := Table.find?_some h
  exact ⟨hj, by simpa using hdue⟩

theorem mem_remove {q' : JobQueue} {jobId : String} (h : remove q jobId = some q') {x : Job} :
    x ∈ q' ↔ x ∈ q ∧ x.jobId ≠ jobId := by
  unfold remove at h
  split at h
  · cases h
  · cases h
    simp [Table.mem_delete]

/-- A removal takes away no other job. -/
theorem getJob_remove_ne {q' : JobQueue} {jobId jobId' : String} (h : remove q jobId = some q')
    (hne : jobId' ≠ jobId) : getJob q' jobId' = getJob q jobId' := by
  unfold remove at h
  split at h
  · cases h
  · cases h
    show (q.rows.filter _).find? _ = q.rows.find? _
    rw [List.find?_filter]
    congr 1
    funext j
    by_cases hj : j.jobId = jobId'
    · simp [hj, hne]
    · simp [hj]

/-- A queue without a job in execution refuses no removal. -/
theorem remove_isSome (h : ∀ j ∈ q, j.state ≠ .active) (jobId : String) :
    ∃ q', remove q jobId = some q' :=
  ⟨_, if_neg fun ⟨j, hj, _, hst⟩ => h j hj hst⟩

/-- The three state changes keep every job under its id, with its data. -/
structure Moves (jobId : String) (f : Job → Job) (q q' : JobQueue) : Prop where
  mem : ∀ x, x ∈ q' ↔ ∃ j ∈ q, (if j.jobId = jobId then f j else j) = x
  jobId : ∀ j, (f j).jobId = j.jobId
  data : ∀ j, (f j).data = j.data

theorem activate_moves (jobId : String) :
    Moves jobId (fun j => { j with state := .active }) q (activate q jobId) :=
  ⟨fun x => by simp [activate, modifyJob, Table.mem_modify], fun _ => rfl, fun _ => rfl⟩

theorem complete_moves (jobId : String) :
    Moves jobId (fun j => { j with state := .completed }) q (complete q jobId) :=
  ⟨fun x => by simp [complete, modifyJob, Table.mem_modify], fun _ => rfl, fun _ => rfl⟩

theorem retry_moves (jobId : String) (now : Millis) :
    Moves jobId (Job.retried now) q (retry q jobId now) :=
  ⟨fun x => by simp [retry, modifyJob, Table.mem_modify], Job.retried_jobId now,
    Job.retried_data now⟩

end JobQueue

end Reedr
