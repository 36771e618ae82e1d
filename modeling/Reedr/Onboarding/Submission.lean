import Reedr.Onboarding.Verification

/-!
# What the status of an application says has been submitted

Each step sets the status that says it was the last one, without a look at the
steps before it. Nothing stops a user from sending the licence first, or the
vehicle with all documents at once. The status is the authority on the columns
that are filled as long as every step follows the ones before it.
-/

namespace Reedr
open Relational Interleaving

namespace DriverApplication
variable (a : DriverApplication)

def PersonalInfoFilled : Prop :=
  a.fullLegalName.isSome ∧ a.dateOfBirth.isSome ∧ a.residentialAddress.isSome

def LicenseFilled : Prop := a.licenseNumber.isSome ∧ a.licenseExpiryDate.isSome

instance : Decidable a.PersonalInfoFilled := inferInstanceAs (Decidable (_ ∧ _ ∧ _))
instance : Decidable a.LicenseFilled := inferInstanceAs (Decidable (_ ∧ _))
instance : Decidable a.VehicleFilled := inferInstanceAs (Decidable (_ ∧ _ ∧ _ ∧ _ ∧ _ ∧ _))

/-- The columns that have been submitted, going by the status. -/
def SubmittedBy : DriverApplicationStatus → Prop
  | .personalInfoSubmitted => a.PersonalInfoFilled
  | .licenseSubmitted => a.PersonalInfoFilled ∧ a.LicenseFilled
  | .underReview | .verified => a.PersonalInfoFilled ∧ a.LicenseFilled ∧ a.VehicleFilled
  | _ => True

instance (status : DriverApplicationStatus) : Decidable (a.SubmittedBy status) := by
  cases status <;> unfold SubmittedBy <;> infer_instance

end DriverApplication

/-- The status of every application is the authority on what has been submitted. -/
def Registry.StatusHonest (s : Registry) : Prop :=
  ∀ a ∈ s.driverApplications, a.SubmittedBy a.status

instance (s : Registry) : Decidable s.StatusHonest :=
  inferInstanceAs (Decidable (∀ a ∈ s.driverApplications, a.SubmittedBy a.status))

/-- The columns that have to be filled before the write. -/
def ApplicationWrite.Follows (a : DriverApplication) : ApplicationWrite → Prop
  | .license _ => a.PersonalInfoFilled
  | .vehicle _ _ => a.PersonalInfoFilled ∧ a.LicenseFilled
  | _ => True

/-- A step is submitted for an application that has the steps before it. -/
def StepsInOrder (w : OnboardingWorld) (_ : OnboardingInvocation) : OnboardingStmt → Prop
  | .updateApplication id write =>
      ∀ a ∈ w.shared.driverApplications, a.id = id → write.Follows a
  | _ => True

/-- Approvals are issued for an application under review; no other write verifies one. -/
def ApprovedUnderReview (w : OnboardingWorld) (_ : OnboardingInvocation) : OnboardingStmt → Prop
  | .approveBatch id _ _ _ =>
      ∃ a ∈ w.shared.driverApplications, a.id = id ∧ a.status = .underReview
  | .updateApplication _ (.verify _) => False
  | _ => True

/-- The applications are the same, as between the statements of a call that runs alone. -/
def SameApplications (w w' : OnboardingWorld) : Prop :=
  w'.shared.driverApplications = w.shared.driverApplications

/-- A write keeps the status honest exactly when it follows the steps before it. -/
theorem ApplicationWrite.apply_honest_iff {write : ApplicationWrite} {a : DriverApplication}
    (hwrite : ∀ now, write ≠ .verify now) :
    (write.apply a).SubmittedBy (write.apply a).status ↔ write.Follows a := by
  cases write with
  | restart => exact Iff.rfl
  | personalInfo dto => exact iff_of_true ⟨rfl, rfl, rfl⟩ trivial
  | license dto => exact ⟨fun h => h.1, fun h => ⟨h, rfl, rfl⟩⟩
  | vehicle dto now =>
      constructor
      · exact fun h => ⟨h.1, h.2.1⟩
      · exact fun h => ⟨h.1, h.2, rfl, rfl, rfl, rfl, rfl, rfl⟩
  | reject rejectionReason now => exact Iff.rfl
  | verify now => exact absurd rfl (hwrite now)

namespace Registry.StatusHonest
variable {s s' : Registry}

theorem congr (h : s.StatusHonest) (ha : s'.driverApplications = s.driverApplications) :
    s'.StatusHonest := by
  rwa [StatusHonest, ha]

private theorem createApplication (h : s.StatusHonest) {a : DriverApplication}
    (ha : s.driverApplications.Extends a s'.driverApplications) (hst : a.status = .notStarted) :
    s'.StatusHonest := by
  intro x hx
  rcases (ha x).mp hx with hx | rfl
  · exact h x hx
  · rw [hst]
    trivial

private theorem updateApplication_iff (h : s.StatusHonest) {id : Id} {write : ApplicationWrite}
    (hwrite : ∀ now, write ≠ .verify now)
    (ha : s.driverApplications.Rewrites (write.applyTo id) s'.driverApplications) :
    s'.StatusHonest ↔ ∀ a ∈ s.driverApplications, a.id = id → write.Follows a := by
  constructor
  · intro h' a ham hid
    have hnew := h' _ (ha.mem ham)
    rw [ApplicationWrite.applyTo, if_pos hid] at hnew
    exact (ApplicationWrite.apply_honest_iff hwrite).mp hnew
  · intro hfollows x hx
    obtain ⟨a, ham, rfl⟩ := (ha x).mp hx
    by_cases hid : a.id = id
    · rw [ApplicationWrite.applyTo, if_pos hid]
      exact (ApplicationWrite.apply_honest_iff hwrite).mpr (hfollows a ham hid)
    · rw [ApplicationWrite.applyTo, if_neg hid]
      exact h a ham

/-- An application under review has everything that a verified one must have. -/
private theorem approveBatch (h : s.StatusHonest) {id : Id} {now : Millis}
    (ha : s.driverApplications.Rewrites ((ApplicationWrite.verify now).applyTo id)
      s'.driverApplications)
    (hread : ∃ a ∈ s.driverApplications, a.id = id ∧ a.status = .underReview) :
    s'.StatusHonest := by
  obtain ⟨r, hr, hrid, hst⟩ := hread
  intro x hx
  obtain ⟨a, ham, rfl⟩ := (ha x).mp hx
  by_cases hid : a.id = id
  · have hfilled := h a ham
    rw [DriverApplication.eq_of_id ham hr (hid.trans hrid.symm), hst] at hfilled
    rw [ApplicationWrite.applyTo, if_pos hid,
      DriverApplication.eq_of_id ham hr (hid.trans hrid.symm)]
    exact hfilled
  · rw [ApplicationWrite.applyTo, if_neg hid]
    exact h a ham

end Registry.StatusHonest

section Commit
variable {cfg : Config} {w : OnboardingWorld} {i : OnboardingInvocation} {o : OnboardingStmt}
  {b : o.Res} {s : Registry}

/-- A statement keeps the status honest exactly when it is not a step out of order. -/
theorem statusHonest_commit_iff (hJ : ApprovedUnderReview w i o) (h : w.shared.StatusHonest)
    (hx : Registry.exec cfg o w.shared = .ok (b, s)) : s.StatusHonest ↔ StepsInOrder w i o := by
  have hwrote := Registry.exec_wrote hx
  generalize hsh : w.shared = s₀ at hwrote h
  cases hwrote with
  | nothing ho hu ha hd hp =>
      refine iff_of_true (h.congr ha) ?_
      cases o <;> trivial
  | createApplication hu ha hd hp fresh => exact iff_of_true (h.createApplication ha rfl) trivial
  | @updateApplication id write _ _ hu ha hd hp =>
      simp only [StepsInOrder, hsh]
      refine h.updateApplication_iff (fun now hnow => ?_) ha
      subst hnow
      exact hJ
  | approveBatch hu ha hd hp => exact iff_of_true (h.approveBatch ha (hsh ▸ hJ)) trivial
  | upsertDocument hu ha hd hp => exact iff_of_true (h.congr ha) trivial
  | setActiveProfile hu ha hd hp => exact iff_of_true (h.congr ha) trivial
  | ride hu ha hd hr => exact iff_of_true (h.congr ha) trivial

end Commit

section Calls
open DriverDocumentsService DriverApplicationService

/-- Statements that verify no application and, in the ride tables, write at most
a driver's availability. -/
def OnboardingStmt.routine : OnboardingStmt → Bool
  | .approveBatch _ _ _ _ | .updateApplication _ (.verify _) => false
  | .ride o => !o.writesTables || o.updatesProfile
  | _ => true

theorem OnboardingStmt.routine_of_step {o : OnboardingStmt} (h : o.step = true) :
    o.routine = true := by
  cases o with
  | updateApplication id write =>
      cases write with
      | verify now => exact nomatch h
      | _ => rfl
  | approveBatch id userId uuid now => exact nomatch h
  | ride o => exact nomatch h
  | _ => rfl

theorem ApprovedUnderReview.of_routine {w : OnboardingWorld} {i : OnboardingInvocation}
    {o : OnboardingStmt} (h : o.routine = true) : ApprovedUnderReview w i o := by
  cases o with
  | updateApplication id write =>
      cases write with
      | verify now => exact nomatch h
      | _ => trivial
  | approveBatch id userId uuid now => exact nomatch h
  | _ => trivial

variable {cfg : Config} {i : OnboardingInvocation} {w : OnboardingWorld}

private theorem approved_of_uses {α : Type} {c : OnboardingCall α}
    (h : c.Uses fun o : OnboardingStmt => o.routine = true) :
    Justified (onboardingSystem cfg) (fun _ => True) SameApplications ApprovedUnderReview i c w :=
  Justified.of_uses (fun _ _ ho => ApprovedUnderReview.of_routine ho) h

/-- A review that runs alone approves what it has read under review. -/
theorem review_approved (applicationId : Id) (decision : DriverApplicationStatus)
    (rejectionReason : Option String) (uuid : Id) :
    Justified (onboardingSystem cfg) (fun _ => True) SameApplications ApprovedUnderReview i
      (review applicationId decision rejectionReason uuid) w := by
  simp only [review, findById, bind_assoc]
  apply Justified.perform_bind
  intro w₁ _ _
  refine ⟨trivial, ?_⟩
  rintro b s ⟨⟩ n₁
  apply Justified.required_bind
  intro a hae
  apply Justified.ensure_bind
  intro hst
  apply Justified.perform_bind
  intro w₂ _ hw₂
  refine ⟨trivial, ?_⟩
  rintro now s ⟨⟩ n₂
  split
  · exact approved_of_uses (Call.Uses.perform rfl)
  · intro w₃ _ hw₃
    have hsame : w₃.shared.driverApplications = w₁.shared.driverApplications := hw₃.trans hw₂
    refine ⟨⟨a, ?_, rfl, hst⟩, fun _ _ _ _ => trivial, fun _ => trivial⟩
    rw [hsame]
    exact (Table.find?_some hae).1

/-- Only a review may verify an application. -/
theorem OnboardingInvocation.code_routine (i : OnboardingInvocation)
    (hi : ∀ a d r u, i ≠ .review a d r u) :
    (i.code cfg).Uses fun o : OnboardingStmt => o.routine = true := by
  have step {α : Type} {c : OnboardingCall α} (h : c.Uses fun o : OnboardingStmt => o.step = true) :
      c.Uses fun o : OnboardingStmt => o.routine = true :=
    h.mono fun _ => OnboardingStmt.routine_of_step
  cases i with
  | start userId uuid => exact Call.Uses.void (step (start_uses userId uuid))
  | submitPersonalInfo userId dto =>
      exact Call.Uses.void (Call.Uses.bind (step (loadEditable_uses userId))
        fun _ => Call.Uses.perform rfl)
  | submitLicense userId dto licenseImage keyUuid rowUuid =>
      exact Call.Uses.void (Call.Uses.bind (step (loadEditable_uses userId))
        fun _ => Call.Uses.bind (step (upload_uses _ _)) fun _ => Call.Uses.perform rfl)
  | submitVehicle userId dto files =>
      exact Call.Uses.void (submitVehicle_uses (fun _ => OnboardingStmt.routine_of_step) rfl
        (fun _ _ _ => rfl) userId dto files)
  | uploadOptionalDocument userId u =>
      exact Call.Uses.void (step (Call.Uses.bind (Call.Uses.ensure _ _)
        fun _ => Call.Uses.bind (findByUserId_uses userId) fun _ => upload_uses _ _))
  | review a d r u => exact absurd rfl (hi a d r u)
  | setActiveProfile userId profile =>
      exact Call.Uses.void (setActiveProfile_uses (P := fun o => o.routine = true) (fun _ => rfl)
        (fun _ _ => rfl) (fun userId => goOffline_uses cfg userId) userId profile)
  | elapse duration => exact Call.Uses.perform rfl

theorem code_approved (i : OnboardingInvocation) (w : OnboardingWorld) :
    Justified (onboardingSystem cfg) (fun _ => True) SameApplications ApprovedUnderReview i
      (i.code cfg) w := by
  by_cases hreview : ∃ a d r u, i = .review a d r u
  · obtain ⟨applicationId, decision, rejectionReason, uuid, rfl⟩ := hreview
    exact Justified.void (review_approved applicationId decision rejectionReason uuid)
  · exact approved_of_uses (i.code_routine fun a d r u h => hreview ⟨a, d, r, u, h⟩)

end Calls

/-- In whole calls, one at a time, the status is the authority on what has been
submitted, in every state on the way, if and only if no licence or vehicle step
commits on an application without the steps before it. -/
theorem status_honest_iff (cfg : Config) (fresh : FreshUsers)
    (calls : List (OnboardingInvocation × List Bool)) :
    ((onboardingPool fresh).serveAll (onboardingSystem cfg) calls).world.Always
        (fun w => w.shared.StatusHonest) ↔
      ((onboardingPool fresh).serveAll (onboardingSystem cfg) calls).world.AllExecuted
        StepsInOrder := by
  have hinit : (onboardingPool fresh).world.shared.StatusHonest :=
    fun a ha => absurd ha (Table.not_mem_empty a)
  apply Pool.serveAll_always_iff (I := fun _ => True) _ (fun i w _ => code_approved i w)
    (fun _ _ _ => trivial) _ trivial hinit calls
  · exact fun _ => rfl
  · exact fun _ hJ hK hx => statusHonest_commit_iff hJ hK hx

/-- The licence is submitted right after the start. -/
def licenseFirst : List (OnboardingInvocation × List Bool) :=
  [(.start "applicant" "application", []),
    (.submitLicense "applicant" ⟨"L-1", 1000⟩ ⟨"bytes", "image/png", "scan.png", 5⟩ "key"
      "document", [])]

/-- The application is then LICENSE_SUBMITTED with no name on it. -/
theorem not_statusHonest_licenseFirst :
    ¬ ((onboardingPool oneApplicant).serveAll (onboardingSystem .default)
      licenseFirst).world.shared.StatusHonest := by
  decide +kernel

end Reedr
