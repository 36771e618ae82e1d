import Reedr.Onboarding.Progress

/-!
# The step at which to resume

`getStatus` names the step at which the app should resume, by the status alone.
Each step is accepted at each status that can still be edited, but the vehicle
step asks for a licence that only the step before it has uploaded. An app that
does what it is told finds it there.

## Implementation notes

A rejected application names the first step, which is accepted only once the
application has been started again.
-/

namespace Reedr
open Relational Interleaving

structure DriverApplicationStatusResponseDto where
  status : DriverApplicationStatus
  currentStep : Option Nat
  rejectionReason : Option String
  deriving DecidableEq, Repr

namespace DriverApplicationService

/-- Which step the app should resume at for each in-progress status. -/
def resumeStep : DriverApplicationStatus → Option Nat
  | .notStarted => some 1
  | .personalInfoSubmitted => some 2
  | .licenseSubmitted => some 3
  | .vehicleSubmitted => some 3
  | .rejected => some 1
  | .underReview | .verified => none

def getStatus (s : Registry) (userId : Id) :
    Except ServiceError DriverApplicationStatusResponseDto :=
  match s.driverApplications.find? fun a => a.userId = userId with
  | none => .error (.notFound "No driver application started")
  | some application => .ok
      { status := application.status
        currentStep := resumeStep application.status
        rejectionReason := application.rejectionReason }

end DriverApplicationService

/-- What the app submits at a step, with the ids that are drawn for its documents. -/
def Forms.submission (forms : Forms) (userId : Id) (uuid uuid' : Id) :
    Nat → OnboardingInvocation
  | 1 => .submitPersonalInfo userId forms.personal
  | 2 => .submitLicense userId forms.license forms.licenseImage uuid uuid
  | _ => .submitVehicle userId forms.vehicle (forms.files uuid uuid')

/-- Rounds of an app that asks for the status and submits the step it is told. -/
inductive Rounds (cfg : Config) (userId : Id) (forms : Forms) (p : OnboardingPool) :
    Nat → OnboardingPool → Prop where
  | none : Rounds cfg userId forms p 0 p
  | next {k q answer step uuid uuid'} (h : Rounds cfg userId forms p k q)
      (hanswer : DriverApplicationService.getStatus q.world.shared userId = .ok answer)
      (hstep : answer.currentStep = some step) (hne : uuid ≠ uuid')
      (hunused : ∀ d ∈ q.world.shared.driverDocuments, d.id ≠ uuid ∧ d.id ≠ uuid') :
      Rounds cfg userId forms p (k + 1)
        (q.serve (onboardingSystem cfg) (forms.submission userId uuid uuid' step, []))

/-- Whoever is to resume with the vehicle has uploaded the licence. -/
def Registry.Resumable (s : Registry) : Prop :=
  ∀ a ∈ s.driverApplications, DriverApplicationService.resumeStep a.status = some 3 →
    ∃ d ∈ s.driverDocuments, d.slot = (a.id, .driversLicense)

/-- The licence step ends with the document in place. -/
def LicenseUploaded (w : OnboardingWorld) (_ : OnboardingInvocation) : OnboardingStmt → Prop
  | .updateApplication id (.license _) =>
      ∃ d ∈ w.shared.driverDocuments, d.slot = (id, .driversLicense)
  | _ => True

/-- Statements that are not the end of a licence step. -/
def OnboardingStmt.elsewhere : OnboardingStmt → Bool
  | .updateApplication _ (.license _) => false
  | _ => true

theorem LicenseUploaded.of_elsewhere {w : OnboardingWorld} {i : OnboardingInvocation}
    {o : OnboardingStmt} (h : o.elsewhere = true) : LicenseUploaded w i o := by
  cases o with
  | updateApplication id write =>
      cases write with
      | license dto => exact nomatch h
      | _ => trivial
  | _ => trivial

section Calls
open DriverDocumentsService DriverApplicationService

private theorem upload_elsewhere (applicationId : Id) (u : Upload) :
    (upload applicationId u).Uses fun o : OnboardingStmt => o.elsewhere = true := by
  apply Call.Uses.bind (Call.Uses.ensure _ _)
  intro _
  refine Call.Uses.bind (Call.Uses.perform rfl) fun existing => ?_
  refine Call.Uses.bind (Call.Uses.perform rfl) fun _ => ?_
  refine Call.Uses.bind (Call.Uses.perform rfl) fun document => ?_
  cases existing with
  | none => trivial
  | some previous =>
      dsimp only
      split
      · exact Call.Uses.bind (Call.Uses.recover (Call.Uses.perform rfl) fun _ => trivial)
          fun _ => trivial
      · trivial

private theorem findByUserId_elsewhere (userId : Id) :
    (findByUserId userId).Uses fun o : OnboardingStmt => o.elsewhere = true :=
  Call.Uses.bind (Call.Uses.perform rfl) fun _ => Call.Uses.required _ _

private theorem loadEditable_elsewhere (userId : Id) :
    (loadEditable userId).Uses fun o : OnboardingStmt => o.elsewhere = true :=
  Call.Uses.bind (findByUserId_elsewhere userId) fun _ =>
    Call.Uses.bind (Call.Uses.ensure _ _) fun _ =>
      Call.Uses.bind (Call.Uses.ensure _ _) fun _ => trivial

private theorem start_elsewhere (userId uuid : Id) :
    (start userId uuid).Uses fun o : OnboardingStmt => o.elsewhere = true := by
  refine Call.Uses.bind (Call.Uses.perform rfl) fun existing => ?_
  cases existing with
  | none => exact Call.Uses.perform rfl
  | some existing =>
      apply Call.Uses.bind (Call.Uses.ensure _ _)
      intro _
      split
      · exact Call.Uses.perform rfl
      · trivial

private theorem submitVehicle_elsewhere (userId : Id) (dto : SubmitVehicleDto)
    (files : List Upload) :
    (submitVehicle userId dto files).Uses fun o : OnboardingStmt => o.elsewhere = true := by
  apply Call.Uses.bind (loadEditable_elsewhere userId)
  intro application
  apply Call.Uses.bind
  · refine Call.Uses.bind (Call.Uses.perform rfl) fun existing => ?_
    cases existing with
    | none => trivial
    | some existing => exact Call.Uses.ensure _ _
  · intro _
    apply Call.Uses.bind (Call.Uses.forEach fun u _ => Call.Uses.void (upload_elsewhere _ u))
    intro _
    refine Call.Uses.bind (Call.Uses.bind (Call.Uses.perform rfl) fun _ => trivial) ?_
    intro uploaded
    apply Call.Uses.bind (Call.Uses.ensure _ _)
    intro _
    exact Call.Uses.bind (Call.Uses.perform rfl) fun _ => Call.Uses.perform rfl

variable {cfg : Config} {i : OnboardingInvocation} {w : OnboardingWorld}

/-- The pool's calls, as far as the licence goes. -/
private abbrev Walk (cfg : Config) (i : OnboardingInvocation) {α : Type} (c : OnboardingCall α)
    (w : OnboardingWorld) : Prop :=
  Justified (onboardingSystem cfg) (fun w => w.shared.Resumable) LaterOn LicenseUploaded i c w

private theorem walk_elsewhere {α : Type} {c : OnboardingCall α}
    (h : c.Uses fun o : OnboardingStmt => o.elsewhere = true) : Walk cfg i c w :=
  Justified.of_uses (fun _ _ ho => LicenseUploaded.of_elsewhere ho) h

/-- The licence is in place from the upsert on, and no statement takes it away. -/
private theorem submitLicense_walk (userId : Id) (dto : SubmitLicenseDto)
    (licenseImage : UploadableFile) (keyUuid rowUuid : Id) :
    Walk cfg i (submitLicense userId dto licenseImage keyUuid rowUuid) w := by
  apply Justified.bind (walk_elsewhere (loadEditable_elsewhere userId))
  intro a _
  simp only [upload, bind_assoc]
  apply Justified.ensure_bind
  intro _
  refine Justified.perform_bind fun w₁ _ _ => ⟨trivial, fun existing _ _ _ => ?_⟩
  refine Justified.perform_bind fun w₂ _ _ => ⟨trivial, fun _ _ _ _ => ?_⟩
  refine Justified.perform_bind fun w₃ _ _ => ⟨trivial, fun d s hx n => ?_⟩
  let K : OnboardingWorld → Prop := fun w =>
    ∃ d ∈ w.shared.driverDocuments, d.slot = (a.id, .driversLicense)
  let P : OnboardingStmt → Prop := fun o =>
    o.elsewhere = true ∨ o = .updateApplication a.id (.license dto)
  have later {w w' : OnboardingWorld} (hK : K w) (hw : LaterOn w w') : K w' := by
    obtain ⟨d, hd, hslot⟩ := hK
    obtain ⟨d', hd', hsame⟩ := hw.documents d hd
    exact ⟨d', hd', hsame.trans hslot⟩
  refine Justified.of_uses_within (K := K) (P := P) later ?_ ?_ ?_ ?_
  · rintro w o hK (ho | rfl)
    · exact LicenseUploaded.of_elsewhere ho
    · exact hK
  · intro w n o b s hK _ hx
    exact later hK (.of_wrote (Registry.exec_wrote hx))
  · cases existing with
    | none => exact Call.Uses.perform (Or.inr rfl)
    | some previous =>
        dsimp only
        split
        · refine Call.Uses.bind (Call.Uses.bind ?_ fun _ => trivial)
            fun _ => Call.Uses.perform (Or.inr rfl)
          exact Call.Uses.recover (Call.Uses.perform (Or.inl rfl)) fun _ => trivial
        · exact Call.Uses.perform (Or.inr rfl)
  · exact (Registry.upsertDocument_row (Registry.thrown_ok hx)).1

/-- Every call of the onboarding services ends a licence step with the licence in place. -/
private theorem code_walk (i : OnboardingInvocation) (w : OnboardingWorld) :
    Walk cfg i (i.code cfg) w := by
  cases i with
  | start userId uuid => exact walk_elsewhere (Call.Uses.void (start_elsewhere userId uuid))
  | submitPersonalInfo userId dto =>
      exact walk_elsewhere (Call.Uses.void (Call.Uses.bind (loadEditable_elsewhere userId)
        fun _ => Call.Uses.perform rfl))
  | submitLicense userId dto licenseImage keyUuid rowUuid =>
      exact Justified.void (submitLicense_walk userId dto licenseImage keyUuid rowUuid)
  | submitVehicle userId dto files =>
      exact walk_elsewhere (Call.Uses.void (submitVehicle_elsewhere userId dto files))
  | uploadOptionalDocument userId u =>
      exact walk_elsewhere (Call.Uses.void (Call.Uses.bind (Call.Uses.ensure _ _)
        fun _ => Call.Uses.bind (findByUserId_elsewhere userId) fun _ => upload_elsewhere _ _))
  | review applicationId decision rejectionReason uuid =>
      exact walk_elsewhere (Call.Uses.void (review_uses
        (P := fun o => o.elsewhere = true) (fun _ => rfl) rfl (fun _ _ _ => rfl)
        (fun _ _ _ _ => rfl) applicationId decision rejectionReason uuid))
  | setActiveProfile userId profile =>
      exact walk_elsewhere (Call.Uses.void (setActiveProfile_uses
        (P := fun o => o.elsewhere = true) (fun _ => rfl) (fun _ _ => rfl)
        (fun _ => (Call.Uses.any _).mono fun _ _ => rfl) userId profile))
  | elapse duration => exact walk_elsewhere (Call.Uses.perform rfl)

end Calls

section Commit
variable {cfg : Config} {w : OnboardingWorld} {i : OnboardingInvocation} {o : OnboardingStmt}
  {b : o.Res} {s : Registry}

private theorem resumable_commit (hJ : LicenseUploaded w i o) (h : w.shared.Resumable)
    (hx : Registry.exec cfg o w.shared = .ok (b, s)) : s.Resumable := by
  have hwrote := Registry.exec_wrote hx
  have hlater : w.shared.Matures s := Registry.Matures.of_wrote hwrote
  have kept {id : Id} (hd : ∃ d ∈ w.shared.driverDocuments, d.slot = (id, .driversLicense)) :
      ∃ d ∈ s.driverDocuments, d.slot = (id, .driversLicense) := by
    obtain ⟨d, hd, hslot⟩ := hd
    obtain ⟨d', hd', hsame⟩ := hlater.documents d hd
    exact ⟨d', hd', hsame.trans hslot⟩
  have same (ha : s.driverApplications = w.shared.driverApplications) : s.Resumable :=
    fun a hm hst => kept (h a (ha ▸ hm) hst)
  have uploaded {id : Id} {dto : SubmitLicenseDto} (ho : o = .updateApplication id (.license dto)) :
      ∃ d ∈ w.shared.driverDocuments, d.slot = (id, .driversLicense) := by
    subst ho
    exact hJ
  clear hlater hx
  generalize w.shared = s₀ at *
  cases hwrote with
  | nothing ho hu ha hd hp => exact same ha
  | createApplication hu ha hd hp fresh =>
      intro a hm hst
      rcases (ha a).mp hm with hm | rfl
      · exact kept (h a hm hst)
      · cases hst
  | @updateApplication id write _ _ hu ha hd hp =>
      intro a' hm' hst
      obtain ⟨a, hm, rfl⟩ := (ha a').mp hm'
      rw [(DriverApplication.identity_eq.mp (write.applyTo_identity id a)).1]
      by_cases hid : a.id = id
      · rw [ApplicationWrite.applyTo, if_pos hid] at hst
        cases write with
        | license dto => exact kept (hid ▸ uploaded rfl)
        | _ => cases hst
      · rw [ApplicationWrite.applyTo, if_neg hid] at hst
        exact kept (h a hm hst)
  | @approveBatch id userId uuid now _ _ hu ha hd hp =>
      intro a' hm' hst
      obtain ⟨a, hm, rfl⟩ := (ha a').mp hm'
      rw [(DriverApplication.identity_eq.mp
        ((ApplicationWrite.verify now).applyTo_identity id a)).1]
      by_cases hid : a.id = id
      · rw [ApplicationWrite.applyTo, if_pos hid] at hst
        cases hst
      · rw [ApplicationWrite.applyTo, if_neg hid] at hst
        exact kept (h a hm hst)
  | upsertDocument hu ha hd hp => exact same ha
  | setActiveProfile hu ha hd hp => exact same ha
  | ride hu ha hd hr => exact same ha

end Commit

/-- Whatever calls run, overlap, throw or stop. -/
theorem resumable_run (cfg : Config) (fresh : FreshUsers) (ms : List OnboardingMove) :
    ((onboardingPool fresh).run (onboardingSystem cfg) ms).world.shared.Resumable := by
  have D : Discipline (onboardingSystem cfg) (fun w => w.shared.Resumable) LaterOn
      LicenseUploaded := by
    constructor
    · exact fun w => .refl w.shared
    · exact Registry.Matures.trans
    · exact fun i w _ => code_walk i w
    · intro w n i o b s hI hJ hx
      exact ⟨resumable_commit hJ hI hx, .of_wrote (Registry.exec_wrote hx)⟩
  have hinit : (onboardingPool fresh).world.shared.Resumable :=
    fun a ha => absurd ha (Table.not_mem_empty a)
  exact (D.sound_run (Discipline.sound_init _ hinit) ms).1

section Rounds
open DriverApplicationService
variable {cfg : Config} {userId : Id} {forms : Forms} {p q : OnboardingPool} {k : Nat}

/-- The step an application stands at; the fourth is the review. -/
def stepNumber (status : DriverApplicationStatus) : Nat := (resumeStep status).getD 4

theorem resumeStep_eq (status : DriverApplicationStatus) :
    resumeStep status = if stepNumber status < 4 then some (stepNumber status) else none := by
  cases status <;> rfl

theorem stepNumber_bounds (status : DriverApplicationStatus) :
    1 ≤ stepNumber status ∧ stepNumber status ≤ 4 := by
  cases status <;> decide

theorem stepNumber_eq_four {status : DriverApplicationStatus} :
    stepNumber status = 4 ↔ status = .underReview ∨ status = .verified := by
  cases status <;> decide

/-- The application can go on from where its status says it stands. -/
private structure Stands (userId : Id) (forms : Forms) (status : DriverApplicationStatus)
    (s : Registry) : Prop where
  applied : ∃ types, s.Applied userId forms.vehicle.plateNumber status types ∧
    (stepNumber status = 3 → .driversLicense ∈ types)
  status : status ≠ .rejected

private theorem Registry.Applied.mono {s : Registry} {plate : String}
    {status : DriverApplicationStatus} {types types' : List DriverDocumentType}
    (h : s.Applied userId plate status types) (hsub : types' ⊆ types) :
    s.Applied userId plate status types' := by
  obtain ⟨⟨a, ha, hu, hst, hdocs⟩, hplate⟩ := h
  exact ⟨⟨a, ha, hu, hst, fun t ht => hdocs t (hsub ht)⟩, hplate⟩

private theorem Stands.getStatus {status : DriverApplicationStatus} {s : Registry}
    (h : Stands userId forms status s) : ∃ answer, getStatus s userId = .ok answer ∧
      answer.status = status ∧ answer.currentStep = resumeStep status := by
  obtain ⟨types, ⟨⟨a, ha, rfl, rfl, -⟩, -⟩, -⟩ := h.applied
  unfold DriverApplicationService.getStatus
  rw [Registry.applicationByUser_of_mem ha]
  exact ⟨_, rfl, rfl, rfl⟩

/-- The step that the status names is accepted, and leads to the next one. -/
private theorem Stands.next {status : DriverApplicationStatus} {step : Nat} {uuid uuid' : Id}
    (h : Stands userId forms status q.world.shared) (hstep : resumeStep status = some step)
    (hne : uuid ≠ uuid')
    (hunused : ∀ d ∈ q.world.shared.driverDocuments, d.id ≠ uuid ∧ d.id ≠ uuid') :
    ((onboardingSystem cfg).code (forms.submission userId uuid uuid' step)).Returns
      (onboardingSystem cfg) q.running.length (forms.submission userId uuid uuid' step)
      (fun _ w => ∃ status', stepNumber status' = stepNumber status + 1 ∧
        Stands userId forms status' w.shared) q.world := by
  obtain ⟨⟨types, happ, hlicense⟩, hrejected⟩ := h
  have vehicle (hst : Editable status) (hthree : stepNumber status = 3) :
      ((onboardingSystem cfg).code (forms.submission userId uuid uuid' 3)).Returns
        (onboardingSystem cfg) q.running.length (forms.submission userId uuid uuid' 3)
        (fun _ w => ∃ status', stepNumber status' = stepNumber status + 1 ∧
          Stands userId forms status' w.shared) q.world := by
    have happ : q.world.shared.Applied userId forms.vehicle.plateNumber status
        [.driversLicense] :=
      happ.mono fun t ht => List.mem_singleton.mp ht ▸ hlicense hthree
    refine .mono (fun _ w happ => ⟨.underReview, hthree ▸ rfl, ⟨_, happ, nofun⟩, nofun⟩)
      (.void (submitVehicle_returns happ hst rfl rfl forms.vehiclePhoto_allowed
        forms.registrationDocument_allowed (fun d hd => (hunused d hd).1)
        (fun d hd => (hunused d hd).2) hne))
  cases status with
  | notStarted =>
      cases hstep
      exact .mono (fun _ w happ => ⟨.personalInfoSubmitted, rfl, ⟨_, happ, nofun⟩, nofun⟩)
        (.void (submitPersonalInfo_returns happ (by decide) _))
  | personalInfoSubmitted =>
      cases hstep
      exact .mono (fun _ w happ => ⟨.licenseSubmitted, rfl,
        ⟨_, happ, fun _ => List.mem_singleton_self _⟩, nofun⟩)
        (.void (submitLicense_returns happ (by decide) _ forms.licenseImage_allowed
          fun d hd => (hunused d hd).1))
  | licenseSubmitted =>
      cases hstep
      exact vehicle (by decide) rfl
  | vehicleSubmitted =>
      cases hstep
      exact vehicle (by decide) rfl
  | rejected => exact absurd rfl hrejected
  | underReview => exact nomatch hstep
  | verified => exact nomatch hstep

/-- Each round is accepted and leads one step on. -/
private theorem Rounds.stands {status : DriverApplicationStatus}
    (h : Rounds cfg userId forms p k q) (hp : Stands userId forms status p.world.shared) :
    ∃ status', stepNumber status' = stepNumber status + k ∧
      Stands userId forms status' q.world.shared ∧
      ∃ more, q.running = p.running ++ more ∧ more.length = k ∧
        ∀ c ∈ more, c.2.returned = true := by
  induction h with
  | none => exact ⟨status, rfl, hp, [], (List.append_nil _).symm, rfl, nofun⟩
  | @next k q answer step uuid uuid' _ hanswer hstep hne hunused ih =>
      obtain ⟨status', hnumber, hstands, more, hrunning, hlength, hreturned⟩ := ih
      obtain ⟨answer', hanswer', -, hstep'⟩ := hstands.getStatus
      obtain rfl : answer = answer' := Except.ok.inj (hanswer.symm.trans hanswer')
      have hreturns : Call.Returns (onboardingSystem cfg) _ _ _ _ _ :=
        hstands.next (hstep'.symm.trans hstep) hne hunused
      obtain ⟨status'', hnumber', hstands'⟩ := Pool.serve_of_returns hreturns
      refine ⟨status'', by omega, hstands',
        more ++ [(forms.submission userId uuid uuid' step, .done ())], ?_, by simp [hlength], ?_⟩
      · rw [Pool.running_of_returns hreturns, hrunning, List.append_assoc]
      · intro c hc
        rcases List.mem_append.mp hc with hc | hc
        · exact hreturned c hc
        · rw [List.mem_singleton.mp hc]
          rfl

/-- There is a next round until the application is under review. -/
private theorem Rounds.exists {status : DriverApplicationStatus}
    (hp : Stands userId forms status p.world.shared) (hk : stepNumber status + k ≤ 4) :
    ∃ q, Rounds cfg userId forms p k q := by
  induction k with
  | zero => exact ⟨p, .none⟩
  | succ k ih =>
      obtain ⟨q, hq⟩ := ih (by omega)
      obtain ⟨status', hnumber, hstands, -⟩ := hq.stands hp
      obtain ⟨answer, hanswer, -, hstep⟩ := hstands.getStatus
      let ids := q.world.shared.driverDocuments.rows.map fun d => d.id
      obtain ⟨uuid, huuid⟩ := exists_unused ids
      obtain ⟨uuid', huuid'⟩ := exists_unused (uuid :: ids)
      have hunused (d : DriverDocument) (hd : d ∈ q.world.shared.driverDocuments) :
          d.id ≠ uuid ∧ d.id ≠ uuid' := by
        have hmem : d.id ∈ ids := List.mem_map.mpr ⟨d, hd, rfl⟩
        exact ⟨fun h => huuid (h ▸ hmem), fun h => huuid' (List.mem_cons_of_mem _ (h ▸ hmem))⟩
      have hne : uuid ≠ uuid' := fun h => huuid' (h ▸ List.mem_cons_self)
      cases hcurrent : resumeStep status' with
      | none =>
          have hfour : stepNumber status' = 4 := by rw [stepNumber, hcurrent]; rfl
          omega
      | some step => exact ⟨_, hq.next hanswer (hstep.trans hcurrent) hne hunused⟩

/-- Starting an application that was not rejected changes nothing. -/
private theorem start_same {a : DriverApplication} (uuid : Id)
    (ha : a ∈ p.world.shared.driverApplications) (hst : a.status ≠ .rejected) :
    (p.serve (onboardingSystem cfg) (.start a.userId uuid, [])).world.shared =
      p.world.shared := by
  let K : OnboardingWorld → Prop := fun w => w.shared = p.world.shared
  have h : (start a.userId uuid).Ends (onboardingSystem cfg) p.running.length
      (.start a.userId uuid) (fun _ w => K w) p.world := by
    refine Call.Ends.perform_bind (fun _ => rfl) (fun b s hx => ?_) fun _ _ => rfl
    cases hx
    rw [Registry.applicationByUser_of_mem ha]
    refine Call.Ends.ensure_bind (fun _ => ?_) fun _ => rfl
    rw [if_neg hst]
    exact rfl
  exact h.void.eval []

/-- Once it is started, an application stands somewhere. -/
private theorem stands_start {uuid : Id}
    (huuid : ∀ a ∈ p.world.shared.driverApplications, a.id ≠ uuid)
    (hplate : ∀ a ∈ p.world.shared.driverApplications, a.userId ≠ userId →
      a.plateNumber ≠ some forms.vehicle.plateNumber)
    (hresumable : p.world.shared.Resumable) :
    ∃ status, Stands userId forms status
      (p.serve (onboardingSystem cfg) (.start userId uuid, [])).world.shared := by
  by_cases hex : ∃ a ∈ p.world.shared.driverApplications, a.userId = userId
  · obtain ⟨a, ha, rfl⟩ := hex
    by_cases hst : a.status = .rejected
    · have happ : p.world.shared.Applied a.userId forms.vehicle.plateNumber .rejected [] :=
        ⟨⟨a, ha, rfl, hst, fun t ht => absurd ht List.not_mem_nil⟩, hplate⟩
      exact ⟨.notStarted, ⟨[], Pool.serve_of_returns (i := OnboardingInvocation.start a.userId uuid)
        (.void (restart_returns happ)), nofun⟩, nofun⟩
    · rw [start_same uuid ha hst]
      refine ⟨a.status, ?_, hst⟩
      by_cases hthree : stepNumber a.status = 3
      · refine ⟨[.driversLicense], ⟨⟨a, ha, rfl, rfl, fun t ht => ?_⟩, hplate⟩, fun _ =>
          List.mem_singleton_self _⟩
        rw [List.mem_singleton.mp ht]
        exact hresumable a ha (by rw [resumeStep_eq, hthree]; rfl)
      · exact ⟨[], ⟨⟨a, ha, rfl, rfl, fun t ht => absurd ht List.not_mem_nil⟩, hplate⟩,
          fun h => absurd h hthree⟩
  · refine ⟨.notStarted, ⟨[], Pool.serve_of_returns (i := OnboardingInvocation.start userId uuid)
      (.void (start_returns (fun a ha hau => hex ⟨a, ha, hau⟩) hplate huuid)), nofun⟩, nofun⟩

end Rounds

section Review
open DriverApplicationService

/-- From every state that any interleaving of onboarding calls reaches: an app that
starts the application and then does what the status says is told one step after
the other, none of them is refused, and after the last one the application is
under review. -/
theorem resume_reaches_review (cfg : Config) (fresh : FreshUsers) (ms : List OnboardingMove)
    (userId uuid : Id) (forms : Forms)
    (huuid : ∀ a ∈ ((onboardingPool fresh).run (onboardingSystem cfg)
      ms).world.shared.driverApplications, a.id ≠ uuid)
    (hplate : ∀ a ∈ ((onboardingPool fresh).run (onboardingSystem cfg)
        ms).world.shared.driverApplications,
      a.userId ≠ userId → a.plateNumber ≠ some forms.vehicle.plateNumber) :
    let p := ((onboardingPool fresh).run (onboardingSystem cfg) ms).serve (onboardingSystem cfg)
      (.start userId uuid, [])
    ∃ first, 1 ≤ first ∧ (∃ q, Rounds cfg userId forms p (4 - first) q) ∧
      ∀ k q, Rounds cfg userId forms p k q → first + k ≤ 4 ∧
        (∃ answer, getStatus q.world.shared userId = .ok answer ∧
          answer.currentStep = (if first + k < 4 then some (first + k) else none) ∧
          (first + k = 4 → answer.status = .underReview ∨ answer.status = .verified)) ∧
        ∃ more, q.running = p.running ++ more ∧ more.length = k ∧
          ∀ c ∈ more, c.2.returned = true := by
  intro p
  obtain ⟨status, hstands⟩ : ∃ status, Stands userId forms status p.world.shared :=
    stands_start huuid hplate (resumable_run cfg fresh ms)
  have hbounds := stepNumber_bounds status
  refine ⟨stepNumber status, hbounds.1, Rounds.exists hstands (by omega), fun k q hq => ?_⟩
  obtain ⟨status', hnumber, hstands', hmore⟩ := hq.stands hstands
  obtain ⟨answer, hanswer, hstatus, hstep⟩ := hstands'.getStatus
  rw [← hnumber]
  refine ⟨(stepNumber_bounds status').2, ⟨answer, hanswer,
    hstep.trans (resumeStep_eq status'), fun hfour => ?_⟩, hmore⟩
  rw [hstatus]
  exact stepNumber_eq_four.mp hfour

end Review

/-- The applicant whom two reviewers have approved and rejected at once resumes. -/
theorem resume_reaches_review_doubleReview :
    let p := ((onboardingPool oneApplicant).run (onboardingSystem .default) doubleReview).serve
      (onboardingSystem .default) (.start "applicant" "another", [])
    ∃ first, 1 ≤ first ∧ (∃ q, Rounds .default "applicant" adaForms p (4 - first) q) ∧
      ∀ k q, Rounds .default "applicant" adaForms p k q → first + k ≤ 4 ∧
        (∃ answer,
          DriverApplicationService.getStatus q.world.shared "applicant" = .ok answer ∧
          answer.currentStep = (if first + k < 4 then some (first + k) else none) ∧
          (first + k = 4 → answer.status = .underReview ∨ answer.status = .verified)) ∧
        ∃ more, q.running = p.running ++ more ∧ more.length = k ∧
          ∀ c ∈ more, c.2.returned = true :=
  resume_reaches_review .default oneApplicant doubleReview "applicant" "another" adaForms
    (by decide +kernel) (by decide +kernel)

end Reedr
