import Reedr.Onboarding.Services
import Reedr.Ride.Footprints

/-!
# Which statements an onboarding service may execute
-/

namespace Reedr
open Interleaving

/-- The statements of the application steps up to the review. -/
def OnboardingStmt.step : OnboardingStmt → Bool
  | .updateApplication _ (.vehicle _ _) | .updateApplication _ (.verify _)
  | .approveBatch _ _ _ _ | .setActiveProfile _ _ | .ride _ => false
  | _ => true

/-- Statements of an application, from its start to its review, and the clock. -/
def OnboardingStmt.applies : OnboardingStmt → Bool
  | .setActiveProfile _ _ => false
  | .ride .now | .ride (.elapse _) => true
  | .ride _ => false
  | _ => true

theorem OnboardingStmt.applies_of_step {o : OnboardingStmt} (h : o.step = true) :
    o.applies = true := by
  cases o with
  | setActiveProfile userId profile => exact nomatch h
  | ride o => exact nomatch h
  | _ => rfl

section Calls
open DriverDocumentsService DriverApplicationService

theorem upload_uses (applicationId : Id) (u : Upload) :
    (upload applicationId u).Uses fun o : OnboardingStmt => o.step = true := by
  apply Call.Uses.bind (Call.Uses.ensure _ _)
  intro _
  refine Call.Uses.bind (Call.Uses.perform rfl) fun existing => ?_
  refine Call.Uses.bind (Call.Uses.perform rfl) fun _ => ?_
  refine Call.Uses.bind (Call.Uses.perform rfl) fun document => ?_
  cases existing with
  | none => trivial
  | some previous =>
      dsimp only
      split
      · exact Call.Uses.bind (Call.Uses.recover (Call.Uses.perform rfl) fun _ => trivial)
          fun _ => trivial
      · trivial

theorem findByUserId_uses (userId : Id) :
    (findByUserId userId).Uses fun o : OnboardingStmt => o.step = true :=
  Call.Uses.bind (Call.Uses.perform rfl) fun _ => Call.Uses.required _ _

theorem loadEditable_uses (userId : Id) :
    (loadEditable userId).Uses fun o : OnboardingStmt => o.step = true :=
  Call.Uses.bind (findByUserId_uses userId) fun _ =>
    Call.Uses.bind (Call.Uses.ensure _ _) fun _ =>
      Call.Uses.bind (Call.Uses.ensure _ _) fun _ => trivial

theorem assertPlateNumberAvailable_uses (plateNumber ownApplicationId : Id) :
    (assertPlateNumberAvailable plateNumber ownApplicationId).Uses
      fun o : OnboardingStmt => o.step = true := by
  refine Call.Uses.bind (Call.Uses.perform rfl) fun existing => ?_
  cases existing with
  | none => trivial
  | some existing => exact Call.Uses.ensure _ _

theorem start_uses (userId uuid : Id) :
    (start userId uuid).Uses fun o : OnboardingStmt => o.step = true := by
  refine Call.Uses.bind (Call.Uses.perform rfl) fun existing => ?_
  cases existing with
  | none => exact Call.Uses.perform rfl
  | some existing =>
      apply Call.Uses.bind (Call.Uses.ensure _ _)
      intro _
      split
      · exact Call.Uses.perform rfl
      · trivial

/-- The vehicle step ends with the submission, which is no step like the others. -/
theorem submitVehicle_uses {P : OnboardingStmt → Prop} (hstep : ∀ o, o.step = true → P o)
    (hnow : P (.ride .now)) (hsubmit : ∀ id dto now, P (.updateApplication id (.vehicle dto now)))
    (userId : Id) (dto : SubmitVehicleDto) (files : List Upload) :
    (submitVehicle userId dto files).Uses P := by
  apply Call.Uses.bind ((loadEditable_uses userId).mono hstep)
  intro application
  apply Call.Uses.bind ((assertPlateNumberAvailable_uses _ _).mono hstep)
  intro _
  apply Call.Uses.bind (Call.Uses.forEach fun u _ => Call.Uses.void ((upload_uses _ u).mono hstep))
  intro _
  refine Call.Uses.bind (Call.Uses.bind (Call.Uses.perform (hstep _ rfl)) fun _ => trivial) ?_
  intro uploaded
  apply Call.Uses.bind (Call.Uses.ensure _ _)
  intro _
  exact Call.Uses.bind (Call.Uses.perform hnow) fun _ => Call.Uses.perform (hsubmit _ _ _)

theorem review_uses {P : OnboardingStmt → Prop} (hfind : ∀ id, P (.findApplication id))
    (hnow : P (.ride .now)) (hreject : ∀ id r now, P (.updateApplication id (.reject r now)))
    (happrove : ∀ id userId uuid now, P (.approveBatch id userId uuid now)) (applicationId : Id)
    (decision : DriverApplicationStatus) (rejectionReason : Option String) (uuid : Id) :
    (review applicationId decision rejectionReason uuid).Uses P := by
  apply Call.Uses.bind
  · exact Call.Uses.bind (Call.Uses.perform (hfind _)) fun _ => Call.Uses.required _ _
  · intro application
    apply Call.Uses.bind (Call.Uses.ensure _ _)
    intro _
    apply Call.Uses.bind (Call.Uses.perform hnow)
    intro now
    split
    · exact Call.Uses.perform (hreject _ _ _)
    · exact Call.Uses.perform (happrove _ _ _ _)

theorem setActiveProfile_uses {P : OnboardingStmt → Prop} {cfg : Config}
    (hfind : ∀ userId, P (.findDriverProfileByUser userId))
    (hset : ∀ userId profile, P (.setActiveProfile userId profile))
    (hoffline : ∀ userId, (DriversService.goOffline cfg userId).Uses fun o => P (.ride o))
    (userId : Id) (profile : ActiveProfile) :
    (UsersService.setActiveProfile cfg userId profile).Uses P := by
  cases profile with
  | driver =>
      apply Call.Uses.bind (Call.Uses.perform (hfind _))
      intro _
      apply Call.Uses.bind (Call.Uses.required _ _)
      intro _
      exact Call.Uses.bind (Call.Uses.perform (hset _ _)) fun _ => trivial
  | rider =>
      apply Call.Uses.bind (Call.Uses.perform (hset _ _))
      intro _
      exact Call.Uses.bind (Call.Uses.embed (fun _ ho => ho) (hoffline userId)) fun _ => trivial

/-- Apart from a switch of the mode, everything is about applications. -/
theorem OnboardingInvocation.code_applies {cfg : Config} (i : OnboardingInvocation)
    (hi : ∀ userId profile, i ≠ .setActiveProfile userId profile) :
    (i.code cfg).Uses fun o : OnboardingStmt => o.applies = true := by
  have step {α : Type} {c : OnboardingCall α} (h : c.Uses fun o : OnboardingStmt => o.step = true) :
      c.Uses fun o : OnboardingStmt => o.applies = true :=
    h.mono fun _ => OnboardingStmt.applies_of_step
  cases i with
  | start userId uuid => exact Call.Uses.void (step (start_uses userId uuid))
  | submitPersonalInfo userId dto =>
      exact Call.Uses.void (Call.Uses.bind (step (loadEditable_uses userId))
        fun _ => Call.Uses.perform rfl)
  | submitLicense userId dto licenseImage keyUuid rowUuid =>
      exact Call.Uses.void (Call.Uses.bind (step (loadEditable_uses userId))
        fun _ => Call.Uses.bind (step (upload_uses _ _)) fun _ => Call.Uses.perform rfl)
  | submitVehicle userId dto files =>
      exact Call.Uses.void (submitVehicle_uses (fun _ => OnboardingStmt.applies_of_step) rfl
        (fun _ _ _ => rfl) userId dto files)
  | uploadOptionalDocument userId u =>
      exact Call.Uses.void (step (Call.Uses.bind (Call.Uses.ensure _ _)
        fun _ => Call.Uses.bind (findByUserId_uses userId) fun _ => upload_uses _ _))
  | review a d r u =>
      exact Call.Uses.void (review_uses (P := fun o => o.applies = true) (fun _ => rfl) rfl
        (fun _ _ _ => rfl) (fun _ _ _ _ => rfl) a d r u)
  | setActiveProfile userId profile => exact absurd rfl (hi userId profile)
  | elapse duration => exact Call.Uses.perform rfl

end Calls

end Reedr
