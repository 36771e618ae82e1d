import Reedr.Onboarding.Effects
import Reedr.Onboarding.Footprints
import Reedr.Ride.Evolution

/-!
# From documents to driver mode under interleaved calls

Driver mode rests on a profile, a profile on an approved application, and an
approval on a complete one. Each link is tested on an earlier read. It holds
because nothing on the way is ever taken back: no row is deleted, no vehicle
column is emptied, and a profile keeps its user and its application.
-/

namespace Reedr
open Relational Interleaving

/-- The vehicle columns are all filled in. -/
def DriverApplication.VehicleFilled (a : DriverApplication) : Prop :=
  a.vehicleMake.isSome ∧ a.vehicleModel.isSome ∧ a.vehicleYear.isSome ∧
    a.vehicleColor.isSome ∧ a.plateNumber.isSome ∧ a.registrationExpiryDate.isSome

/-- The columns of an application that are fixed at its creation. -/
def DriverApplication.identity (a : DriverApplication) : Id × Id := (a.id, a.userId)

@[simp] theorem DriverApplication.identity_eq {a b : DriverApplication} :
    a.identity = b.identity ↔ a.id = b.id ∧ a.userId = b.userId := by
  simp [identity]

/-- The documents that an application cannot do without. -/
def DriverDocumentType.mandatory : DriverDocumentType → Bool
  | .driversLicense | .vehicleRegistration | .vehiclePhoto => true
  | .proofOfInsurance | .profilePhoto => false

/-- They are the ones that a submission is checked for. -/
theorem mem_requiredDocumentTypes {t : DriverDocumentType} :
    t ∈ DriverApplicationService.requiredDocumentTypes ↔ t.mandatory = true := by
  cases t <;> decide

namespace Registry

/-- A document row of each mandatory type. -/
def HasRequiredDocuments (s : Registry) (applicationId : Id) : Prop :=
  ∀ t : DriverDocumentType, t.mandatory = true → ∃ d ∈ s.driverDocuments,
    d.driverApplicationId = applicationId ∧ d.type = t

/-- The links from documents to driver mode. -/
structure Onboarded (s : Registry) : Prop where
  driver_mode : ∀ u ∈ s.users, u.activeProfile = .driver →
    ∃ p ∈ s.driverProfiles, p.userId = u.id
  profile_application : ∀ p ∈ s.driverProfiles, ∃ a ∈ s.driverApplications,
    a.id = p.driverApplicationId ∧ a.userId = p.userId
  complete : ∀ a ∈ s.driverApplications,
    (a.status = .underReview ∨ a.status = .verified ∨
      ∃ p ∈ s.driverProfiles, p.driverApplicationId = a.id) →
    a.VehicleFilled ∧ s.HasRequiredDocuments a.id

/-- A later registry: everything is still there, and filled columns stay filled. -/
structure Matures (s s' : Registry) : Prop where
  applications : s.driverApplications.Persists DriverApplication.identity s'.driverApplications
  documents : s.driverDocuments.Persists DriverDocument.slot s'.driverDocuments
  profiles : s.driverProfiles.Persists DriverProfile.identity s'.driverProfiles
  filled : ∀ a ∈ s.driverApplications, a.VehicleFilled →
    ∀ a' ∈ s'.driverApplications, a'.id = a.id → a'.VehicleFilled

theorem Matures.refl (s : Registry) : s.Matures s where
  applications := .refl _
  documents := .refl _
  profiles := .refl _
  filled a ha hf a' ha' hid := by rwa [DriverApplication.eq_of_id ha' ha hid]

theorem Matures.trans {s₁ s₂ s₃ : Registry} (h₁ : s₁.Matures s₂) (h₂ : s₂.Matures s₃) :
    s₁.Matures s₃ where
  applications := h₁.applications.trans h₂.applications
  documents := h₁.documents.trans h₂.documents
  profiles := h₁.profiles.trans h₂.profiles
  filled a ha hf a' ha' hid := by
    obtain ⟨b, hb, hba⟩ := h₁.applications a ha
    have hbid : b.id = a.id := (DriverApplication.identity_eq.mp hba).1
    exact h₂.filled b hb (h₁.filled a ha hf b hb hbid) a' ha' (hid.trans hbid.symm)

/-- Documents that were there are there. -/
theorem Matures.hasRequiredDocuments {s s' : Registry} (h : s.Matures s') {applicationId : Id}
    (hd : s.HasRequiredDocuments applicationId) : s'.HasRequiredDocuments applicationId := by
  intro t ht
  obtain ⟨d, hd, hid, htype⟩ := hd t ht
  obtain ⟨d', hd', hslot⟩ := h.documents d hd
  simp only [DriverDocument.slot, Prod.mk.injEq] at hslot
  exact ⟨d', hd', hslot.1.trans hid, hslot.2.trans htype⟩

end Registry

section Rows
variable (id : Id) (write : ApplicationWrite) (a : DriverApplication)

theorem ApplicationWrite.apply_identity : (write.apply a).identity = a.identity := by
  cases write <;> rfl

theorem ApplicationWrite.applyTo_identity : (write.applyTo id a).identity = a.identity := by
  unfold ApplicationWrite.applyTo
  split
  · exact write.apply_identity a
  · rfl

/-- No write empties a vehicle column. -/
theorem ApplicationWrite.apply_vehicleFilled {a : DriverApplication} (h : a.VehicleFilled) :
    (write.apply a).VehicleFilled := by
  cases write with
  | vehicle dto now => simp [apply, DriverApplication.VehicleFilled]
  | _ => exact h

theorem ApplicationWrite.applyTo_vehicleFilled {a : DriverApplication} (h : a.VehicleFilled) :
    (write.applyTo id a).VehicleFilled := by
  unfold ApplicationWrite.applyTo
  split
  · exact write.apply_vehicleFilled h
  · exact h

end Rows

/-- What is known about a statement when it is issued. -/
def Decided (I : OnboardingWorld → Prop) (Rely : OnboardingWorld → OnboardingWorld → Prop)
    (w : OnboardingWorld) (_ : OnboardingInvocation) : OnboardingStmt → Prop
  | .updateApplication id (.vehicle _ _) =>
      Earlier I Rely w fun w₀ => w₀.shared.HasRequiredDocuments id
  | .updateApplication _ (.verify _) => False
  | .approveBatch id userId _ _ => Earlier I Rely w fun w₀ =>
      ∃ a ∈ w₀.shared.driverApplications, a.id = id ∧ a.userId = userId ∧ a.status = .underReview
  | .setActiveProfile userId .driver => Earlier I Rely w fun w₀ =>
      ∃ p ∈ w₀.shared.driverProfiles, p.userId = userId
  | .ride o => o.writesTables = false ∨ o.updatesProfile = true
  | _ => True

/-- The statements about which nothing has to be known. -/
def OnboardingStmt.unconditional : OnboardingStmt → Bool
  | .updateApplication _ (.vehicle _ _) | .updateApplication _ (.verify _)
  | .approveBatch _ _ _ _ | .setActiveProfile _ .driver => false
  | .ride o => !o.writesTables || o.updatesProfile
  | _ => true

theorem OnboardingStmt.unconditional_of_step {o : OnboardingStmt} (h : o.step = true) :
    o.unconditional = true := by
  cases o with
  | updateApplication id write =>
      cases write with
      | vehicle dto now => exact nomatch h
      | verify now => exact nomatch h
      | _ => rfl
  | approveBatch id userId uuid now => exact nomatch h
  | setActiveProfile userId profile => exact nomatch h
  | ride o => exact nomatch h
  | _ => rfl

theorem Decided.of_unconditional {I : OnboardingWorld → Prop}
    {Rely : OnboardingWorld → OnboardingWorld → Prop} {w : OnboardingWorld}
    {i : OnboardingInvocation} {o : OnboardingStmt} (h : o.unconditional = true) :
    Decided I Rely w i o := by
  cases o with
  | updateApplication id write =>
      cases write with
      | vehicle dto now => exact nomatch h
      | verify now => exact nomatch h
      | _ => trivial
  | approveBatch id userId uuid now => exact nomatch h
  | setActiveProfile userId profile =>
      cases profile with
      | driver => exact nomatch h
      | rider => trivial
  | ride o => simpa [OnboardingStmt.unconditional, Decided] using h
  | _ => trivial

/-- Later in a run. -/
def LaterOn (w w' : OnboardingWorld) : Prop := w.shared.Matures w'.shared

/-- The links hold in a world. -/
def Linked (w : OnboardingWorld) : Prop := w.shared.Onboarded

namespace Registry
variable {s s' : Registry}

/-- Every statement keeps what interleaved calls rely on. -/
theorem Matures.of_wrote {o : OnboardingStmt} (h : Wrote o s s') : s.Matures s' := by
  have hrefl := Matures.refl s
  cases h with
  | nothing ho hu ha hd hp =>
      exact ⟨ha ▸ hrefl.applications, hd ▸ hrefl.documents, hp ▸ hrefl.profiles,
        ha ▸ hrefl.filled⟩
  | createApplication hu ha hd hp fresh =>
      refine ⟨ha.persists, hd ▸ hrefl.documents, hp ▸ hrefl.profiles, fun a hm hf a' hm' hid => ?_⟩
      rwa [DriverApplication.eq_of_id hm' (ha.mem_old hm) hid]
  | @updateApplication id write _ _ hu ha hd hp =>
      refine ⟨ha.persists (write.applyTo_identity id), hd ▸ hrefl.documents,
        hp ▸ hrefl.profiles, fun a hm hf a' hm' hid => ?_⟩
      have hsame := (DriverApplication.identity_eq.mp (write.applyTo_identity id a)).1
      rw [DriverApplication.eq_of_id hm' (ha.mem hm) (hid.trans hsame.symm)]
      exact write.applyTo_vehicleFilled id hf
  | @approveBatch id userId uuid now _ _ hu ha hd hp =>
      refine ⟨ha.persists (ApplicationWrite.applyTo_identity id _), hd ▸ hrefl.documents,
        hp.persists, fun a hm hf a' hm' hid => ?_⟩
      have hsame := (DriverApplication.identity_eq.mp
        ((ApplicationWrite.verify now).applyTo_identity id a)).1
      rw [DriverApplication.eq_of_id hm' (ha.mem hm) (hid.trans hsame.symm)]
      exact (ApplicationWrite.verify now).applyTo_vehicleFilled id hf
  | upsertDocument hu ha hd hp =>
      exact ⟨ha ▸ hrefl.applications, hd, hp ▸ hrefl.profiles, ha ▸ hrefl.filled⟩
  | setActiveProfile hu ha hd hp =>
      exact ⟨ha ▸ hrefl.applications, hd ▸ hrefl.documents, hp ▸ hrefl.profiles,
        ha ▸ hrefl.filled⟩
  | ride hu ha hd h =>
      exact ⟨ha ▸ hrefl.applications, hd ▸ hrefl.documents,
        (RideTables.Grows.of_wrote h).profiles, ha ▸ hrefl.filled⟩

/-- Ride statements other than an insertion add no profile. -/
theorem profiles_back {o : Stmt} {db db' : RideTables} (h : Backend.Wrote o db db')
    (ho : o.writesTables = false ∨ o.updatesProfile = true) :
    db'.driverProfiles.Persists DriverProfile.identity db.driverProfiles := by
  cases h with
  | nothing _ => exact .refl _
  | updateDriverProfile _ he hf => exact he.profiles.persists_back fun p => by simp [hf]
  | _ => simp [Stmt.writesTables, Stmt.updatesProfile] at ho

namespace Onboarded

/-- A complete application stays complete. -/
private theorem later (h : s.Onboarded) (hm : s.Matures s') {a a' : DriverApplication}
    (ha : a ∈ s.driverApplications) (ha' : a' ∈ s'.driverApplications) (hid : a'.id = a.id)
    (hdone : a.status = .underReview ∨ a.status = .verified ∨
      ∃ p ∈ s.driverProfiles, p.driverApplicationId = a.id) :
    a'.VehicleFilled ∧ s'.HasRequiredDocuments a'.id := by
  obtain ⟨hf, hd⟩ := h.complete a ha hdone
  exact ⟨hm.filled a ha hf a' ha' hid, hid ▸ hm.hasRequiredDocuments hd⟩

/-- The users in driver mode keep the profiles they had. -/
private theorem driver_mode_later (h : s.Onboarded) (hm : s.Matures s') {u : User}
    (hu : u ∈ s.users) (hdrv : u.activeProfile = .driver) :
    ∃ p ∈ s'.driverProfiles, p.userId = u.id := by
  obtain ⟨p, hp, hpu⟩ := h.driver_mode u hu hdrv
  obtain ⟨p', hp', hpp⟩ := hm.profiles p hp
  exact ⟨p', hp', (DriverProfile.identity_eq.mp hpp).2.1.trans hpu⟩

/-- Statements that leave the applications alone and add no profile keep the
links when they set no driver mode without one. -/
private theorem of_applications_eq (h : s.Onboarded) (hm : s.Matures s')
    (ha : s'.driverApplications = s.driverApplications)
    (hp : s'.driverProfiles.Persists DriverProfile.identity s.driverProfiles)
    (hdriver : ∀ u ∈ s'.users, u.activeProfile = .driver →
      ∃ p ∈ s'.driverProfiles, p.userId = u.id) : s'.Onboarded := by
  refine ⟨hdriver, fun p' hp' => ?_, fun a' ha' hdone => ?_⟩
  · obtain ⟨p, hpm, hpp⟩ := hp p' hp'
    have hpp := DriverProfile.identity_eq.mp hpp
    obtain ⟨a, ham, haid, hau⟩ := h.profile_application p hpm
    exact ⟨a, ha.symm ▸ ham, haid.trans hpp.2.2, hau.trans hpp.2.1⟩
  · have ha₀ : a' ∈ s.driverApplications := ha ▸ ha'
    refine h.later hm ha₀ ha' rfl (hdone.imp id (Or.imp id ?_))
    rintro ⟨p', hp', hpid⟩
    obtain ⟨p, hpm, hpp⟩ := hp p' hp'
    exact ⟨p, hpm, (DriverProfile.identity_eq.mp hpp).2.2.trans hpid⟩

private theorem createApplication (h : s.Onboarded) (hm : s.Matures s') {userId uuid : Id}
    (hu : s'.users = s.users)
    (ha : s.driverApplications.Extends { id := uuid, userId } s'.driverApplications)
    (hp : s'.driverProfiles = s.driverProfiles)
    (fresh : ∀ a ∈ s.driverApplications, a.id ≠ uuid) : s'.Onboarded := by
  refine ⟨by rw [hu, hp]; exact h.driver_mode, fun p hpm => ?_, fun a' ha' hdone => ?_⟩
  · obtain ⟨a, ham, hrest⟩ := h.profile_application p (hp ▸ hpm)
    exact ⟨a, ha.mem_old ham, hrest⟩
  · rw [hp] at hdone
    rcases (ha a').mp ha' with hold | rfl
    · exact h.later hm hold ha' rfl hdone
    · rcases hdone with hst | hst | ⟨p, hpm, hpid⟩
      · exact nomatch hst
      · exact nomatch hst
      · obtain ⟨a, ham, haid, -⟩ := h.profile_application p hpm
        exact absurd (haid.trans hpid) (fresh a ham)

/-- A write on one application keeps the links when the row it leaves under
review, verified or with a profile is complete. -/
private theorem applyTo (h : s.Onboarded) (hm : s.Matures s') {id : Id}
    {write : ApplicationWrite}
    (ha : s.driverApplications.Rewrites (write.applyTo id) s'.driverApplications)
    (hdriver : ∀ u ∈ s'.users, u.activeProfile = .driver →
      ∃ p ∈ s'.driverProfiles, p.userId = u.id)
    (hprofile : ∀ p ∈ s'.driverProfiles, p ∈ s.driverProfiles ∨ p.driverApplicationId = id ∧
      ∃ a ∈ s.driverApplications, a.id = p.driverApplicationId ∧ a.userId = p.userId)
    (hcomplete : ∀ a ∈ s.driverApplications, a.id = id →
      ((write.apply a).status = .underReview ∨ (write.apply a).status = .verified ∨
        ∃ p ∈ s'.driverProfiles, p.driverApplicationId = a.id) →
      (write.apply a).VehicleFilled ∧ s'.HasRequiredDocuments a.id) : s'.Onboarded := by
  have hid (a : DriverApplication) := DriverApplication.identity_eq.mp (write.applyTo_identity id a)
  refine ⟨hdriver, fun p hpm => ?_, fun a' ha' hdone => ?_⟩
  · have hex : ∃ a ∈ s.driverApplications, a.id = p.driverApplicationId ∧ a.userId = p.userId := by
      rcases hprofile p hpm with hold | ⟨-, hex⟩
      · exact h.profile_application p hold
      · exact hex
    obtain ⟨a, ham, haid, hau⟩ := hex
    exact ⟨write.applyTo id a, ha.mem ham, (hid a).1.trans haid, (hid a).2.trans hau⟩
  · obtain ⟨a, ham, rfl⟩ := (ha a').mp ha'
    rw [(hid a).1] at hdone ⊢
    by_cases haid : a.id = id
    · rw [ApplicationWrite.applyTo, if_pos haid] at hdone ⊢
      exact hcomplete a ham haid hdone
    · rw [ApplicationWrite.applyTo, if_neg haid] at hdone
      have hlater := h.later hm ham ha' (hid a).1 (hdone.imp (fun h => h) (Or.imp (fun h => h) ?_))
      · rwa [(hid a).1] at hlater
      · rintro ⟨p, hpm, hpid⟩
        rcases hprofile p hpm with hold | ⟨hnew, -⟩
        · exact ⟨p, hold, hpid⟩
        · exact absurd (hpid.symm.trans hnew) haid

end Onboarded

end Registry

section Commit
variable {cfg : Config} {w : OnboardingWorld} {n : Nat} {i : OnboardingInvocation}
  {o : OnboardingStmt} {b : o.Res} {s : Registry}
open Registry

/-- An application that was under review earlier is complete now. -/
private theorem complete_of_earlier {id userId : Id} {s' : Registry}
    (hJ : Earlier Linked LaterOn w fun w₀ => ∃ a ∈ w₀.shared.driverApplications,
      a.id = id ∧ a.userId = userId ∧ a.status = .underReview)
    (hm : w.shared.Matures s') {a : DriverApplication} (ha : a ∈ s'.driverApplications)
    (hid : a.id = id) :
    a.userId = userId ∧ a.VehicleFilled ∧ s'.HasRequiredDocuments a.id := by
  obtain ⟨w₀, hI, hw, a₀, ha₀, hid₀, hu₀, hst₀⟩ := hJ
  have hm' := Matures.trans hw hm
  obtain ⟨a₁, ha₁, haa⟩ := hm'.applications a₀ ha₀
  have haa := DriverApplication.identity_eq.mp haa
  obtain rfl := DriverApplication.eq_of_id ha₁ ha (haa.1.trans (hid₀.trans hid.symm))
  exact ⟨haa.2.trans hu₀, hI.later hm' ha₀ ha haa.1 (Or.inl hst₀)⟩

/-- Each statement, issued with its fact, keeps the links. -/
theorem linked_commit (h : Linked w) (hJ : Decided Linked LaterOn w i o)
    (hx : exec cfg o w.shared = .ok (b, s)) : Linked (w.commit n i o s) := by
  have hwrote := exec_wrote hx
  have hm : w.shared.Matures s := .of_wrote hwrote
  have earlier {w₀ : OnboardingWorld} (hw : LaterOn w₀ w) : w₀.shared.Matures w.shared := hw
  show s.Onboarded
  generalize hsh : w.shared = s₀ at hwrote hm earlier
  have h : s₀.Onboarded := hsh ▸ h
  have hdriver (hu : s.users = s₀.users) (u : User) (hum : u ∈ s.users) :=
    h.driver_mode_later hm (hu ▸ hum)
  cases hwrote with
  | nothing ho hu ha hd hp => exact h.of_applications_eq hm ha (hp ▸ .refl _) (hdriver hu)
  | createApplication hu ha hd hp fresh => exact h.createApplication hm hu ha hp fresh
  | @updateApplication id write _ _ hu ha hd hp =>
      refine h.applyTo hm ha (hdriver hu) (fun p hpm => Or.inl (hp ▸ hpm))
        fun a ham haid hdone => ?_
      have hmem := ha.mem ham
      rw [ApplicationWrite.applyTo, if_pos haid] at hmem
      have hsame := (DriverApplication.identity_eq.mp (write.apply_identity a)).1
      cases write with
      | vehicle dto now =>
          obtain ⟨w₀, -, hw, hdocs⟩ := hJ
          refine ⟨by simp [ApplicationWrite.apply, DriverApplication.VehicleFilled], ?_⟩
          exact haid ▸ ((earlier hw).trans hm).hasRequiredDocuments hdocs
      | verify now => exact hJ.elim
      | _ =>
          -- The other writes leave the row in a status that demands nothing.
          rcases hdone with hst | hst | hpid
          · cases hst
          · cases hst
          · exact h.later hm ham hmem hsame (Or.inr (Or.inr (hp ▸ hpid)))
  | @approveBatch id userId uuid now _ _ hu ha hd hp =>
      refine h.applyTo hm ha (hdriver hu) (fun p hpm => ?_) fun a ham haid _ => ?_
      · rcases (hp p).mp hpm with hold | rfl
        · exact Or.inl hold
        · obtain ⟨w₀, -, hw, a₀, ha₀, hid₀, hu₀, -⟩ := hJ
          obtain ⟨a, ham, haa⟩ := (earlier hw).applications a₀ ha₀
          have haa := DriverApplication.identity_eq.mp haa
          exact Or.inr ⟨rfl, a, ham, haa.1.trans hid₀, haa.2.trans hu₀⟩
      · have hmem := ha.mem ham
        rw [ApplicationWrite.applyTo, if_pos haid] at hmem
        have hsame := DriverApplication.identity_eq.mp
          ((ApplicationWrite.verify now).apply_identity a)
        rw [← hsame.1]
        exact (complete_of_earlier hJ (hsh.symm ▸ hm) hmem (hsame.1.trans haid)).2
  | upsertDocument hu ha hd hp => exact h.of_applications_eq hm ha (hp ▸ .refl _) (hdriver hu)
  | @setActiveProfile userId profile _ _ hu ha hd hp =>
      apply h.of_applications_eq hm ha (hp ▸ .refl _)
      intro u' hum' hdrv
      obtain ⟨u, hum, rfl⟩ := (hu u').mp hum'
      by_cases hid : u.id = userId
      · simp only [if_pos hid] at hdrv ⊢
        cases hdrv
        obtain ⟨w₀, -, hw, p₀, hp₀, hpu⟩ := hJ
        obtain ⟨p, hpm, hpp⟩ := ((earlier hw).trans hm).profiles p₀ hp₀
        exact ⟨p, hpm, by rw [(DriverProfile.identity_eq.mp hpp).2.1, hpu, hid]⟩
      · simp only [if_neg hid] at hdrv ⊢
        exact h.driver_mode_later hm hum hdrv
  | ride hu ha hd hr => exact h.of_applications_eq hm ha (profiles_back hr hJ) (hdriver hu)

end Commit

section Calls
open DriverDocumentsService DriverApplicationService

/-- The ride statements of going offline write no profile of their own. -/
theorem goOffline_uses (cfg : Config) (userId : Id) :
    (DriversService.goOffline cfg userId).Uses
      fun o : Stmt => (!o.writesTables || o.updatesProfile) = true :=
  DriversService.goOffline_uses (DriversService.findIdentityByUserId_uses (fun _ => rfl)
    (fun _ => rfl) fun _ _ => rfl) (fun _ => rfl) (fun _ _ _ _ => rfl) (fun _ => rfl) userId

variable {cfg : Config} {i : OnboardingInvocation} {w : OnboardingWorld}

private theorem decided_of_uses {α : Type} {c : OnboardingCall α}
    (h : c.Uses fun o : OnboardingStmt => o.unconditional = true) :
    Justified (onboardingSystem cfg) Linked LaterOn (Decided Linked LaterOn) i c w :=
  Justified.of_uses (fun _ _ ho => Decided.of_unconditional ho) h

private theorem decided_of_steps {α : Type} {c : OnboardingCall α}
    (h : c.Uses fun o : OnboardingStmt => o.step = true) :
    Justified (onboardingSystem cfg) Linked LaterOn (Decided Linked LaterOn) i c w :=
  decided_of_uses (h.mono fun _ => OnboardingStmt.unconditional_of_step)

/-- An application is sent for review with its documents in place. -/
theorem submitVehicle_decided (userId : Id) (dto : SubmitVehicleDto) (files : List Upload) :
    Justified (onboardingSystem cfg) Linked LaterOn (Decided Linked LaterOn) i
      (submitVehicle userId dto files) w := by
  apply Justified.bind (decided_of_steps (loadEditable_uses userId))
  intro application _
  apply Justified.bind (decided_of_steps (assertPlateNumberAvailable_uses _ _))
  intro _ _
  refine Justified.bind (decided_of_steps (Call.Uses.forEach fun u _ =>
    Call.Uses.void (upload_uses _ u))) fun _ _ => ?_
  simp only [uploadedTypes, bind_assoc, pure_bind]
  refine Justified.perform_bind fun w₁ hI₁ _ => ⟨trivial, ?_⟩
  rintro documents s ⟨⟩ n₁
  apply Justified.ensure_bind
  intro hmissing
  refine Justified.perform_bind fun w₂ _ hw₂ => ⟨Or.inl rfl, ?_⟩
  rintro now s ⟨⟩ n₂
  refine Justified.perform_bind fun w₃ _ hw₃ => ⟨?_, fun _ _ _ _ => trivial⟩
  refine ⟨w₁, hI₁, Registry.Matures.trans hw₂ hw₃, fun t ht => ?_⟩
  have hup : t ∈ (w₁.shared.driverDocuments.findMany fun d =>
      d.driverApplicationId = application.id).map fun d => d.type := by
    by_contra hno
    exact List.filter_eq_nil_iff.mp hmissing t (mem_requiredDocumentTypes.mpr ht)
      (by simpa using hno)
  obtain ⟨d, hd, rfl⟩ := List.mem_map.mp hup
  obtain ⟨hd, hid⟩ := Table.mem_findMany.mp hd
  exact ⟨d, hd, by simpa using hid, rfl⟩

/-- An application is approved after having been under review. -/
theorem review_decided (applicationId : Id) (decision : DriverApplicationStatus)
    (rejectionReason : Option String) (uuid : Id) :
    Justified (onboardingSystem cfg) Linked LaterOn (Decided Linked LaterOn) i
      (review applicationId decision rejectionReason uuid) w := by
  simp only [review, findById, bind_assoc]
  refine Justified.perform_bind fun w₁ hI₁ _ => ⟨trivial, ?_⟩
  rintro b s ⟨⟩ n₁
  refine Justified.required_bind fun a hae => Justified.ensure_bind fun hst => ?_
  refine Justified.perform_bind fun w₂ _ hw₂ => ⟨Or.inl rfl, ?_⟩
  rintro now s ⟨⟩ n₂
  split
  · exact decided_of_uses (Call.Uses.perform rfl)
  · intro w₃ _ hw₃
    refine ⟨⟨w₁, hI₁, Registry.Matures.trans hw₂ hw₃, a, (Table.find?_some hae).1, rfl, rfl, hst⟩,
      fun _ _ _ _ => trivial, fun _ => trivial⟩

/-- Driver mode is set for a user who has a profile. -/
theorem setActiveProfile_decided (userId : Id) (profile : ActiveProfile) :
    Justified (onboardingSystem cfg) Linked LaterOn (Decided Linked LaterOn) i
      (UsersService.setActiveProfile cfg userId profile) w := by
  cases profile with
  | driver =>
      refine Justified.perform_bind fun w₁ hI₁ _ => ⟨trivial, ?_⟩
      rintro b s ⟨⟩ n₁
      apply Justified.required_bind
      intro p hpe
      obtain ⟨hp, hu⟩ := RideTables.findDriverProfileByUser_some hpe
      exact Justified.perform_bind fun w₂ _ hw₂ =>
        ⟨⟨w₁, hI₁, hw₂, p, hp, hu⟩, fun _ _ _ _ => trivial⟩
  | rider =>
      refine decided_of_uses (Call.Uses.bind (Call.Uses.perform rfl) fun _ => ?_)
      exact Call.Uses.bind (Call.Uses.embed (fun _ ho => ho) (goOffline_uses cfg userId))
        fun _ => trivial

/-- Every call of the onboarding services issues its statements with their facts. -/
theorem code_decided (i : OnboardingInvocation) (w : OnboardingWorld) :
    Justified (onboardingSystem cfg) Linked LaterOn (Decided Linked LaterOn) i (i.code cfg) w := by
  cases i with
  | start userId uuid => exact decided_of_steps (Call.Uses.void (start_uses userId uuid))
  | submitPersonalInfo userId dto =>
      exact decided_of_steps (Call.Uses.void (Call.Uses.bind (loadEditable_uses userId)
        fun _ => Call.Uses.perform rfl))
  | submitLicense userId dto licenseImage keyUuid rowUuid =>
      exact decided_of_steps (Call.Uses.void (Call.Uses.bind (loadEditable_uses userId)
        fun _ => Call.Uses.bind (upload_uses _ _) fun _ => Call.Uses.perform rfl))
  | submitVehicle userId dto files =>
      exact Justified.void (submitVehicle_decided userId dto files)
  | uploadOptionalDocument userId u =>
      exact decided_of_steps (Call.Uses.void (Call.Uses.bind (Call.Uses.ensure _ _)
        fun _ => Call.Uses.bind (findByUserId_uses userId) fun _ => upload_uses _ _))
  | review applicationId decision rejectionReason uuid =>
      exact Justified.void (review_decided applicationId decision rejectionReason uuid)
  | setActiveProfile userId profile =>
      exact Justified.void (setActiveProfile_decided userId profile)
  | elapse duration => exact decided_of_uses (Call.Uses.perform rfl)

end Calls

theorem onboarding_discipline (cfg : Config) :
    Discipline (onboardingSystem cfg) Linked LaterOn (Decided Linked LaterOn) where
  refl w := .refl w.shared
  trans := Registry.Matures.trans
  start i w _ := code_decided i w
  keep hI hJ hx := ⟨linked_commit hI hJ hx, .of_wrote (Registry.exec_wrote hx)⟩

theorem linked_init (fresh : FreshUsers) : Linked (onboardingPool fresh).world := by
  constructor
  · intro u hu hdrv
    exact nomatch (fresh.rider u hu).symm.trans hdrv
  · exact fun p hp => absurd hp (Table.not_mem_empty p)
  · exact fun a ha => absurd ha (Table.not_mem_empty a)

theorem onboardingPool_sound (cfg : Config) (fresh : FreshUsers) (ms : List OnboardingMove) :
    ((onboardingPool fresh).run (onboardingSystem cfg) ms).Sound (onboardingSystem cfg) Linked
      LaterOn (Decided Linked LaterOn) :=
  (onboarding_discipline cfg).sound_run (Discipline.sound_init _ (linked_init fresh)) ms

/-- What driver mode, driver profiles and submitted applications rest on. -/
structure Registry.OnboardingComplete (s : Registry) : Prop extends s.Onboarded where
  profile_user : ∀ p ∈ s.driverProfiles, ∀ q ∈ s.driverProfiles, p.userId = q.userId → p = q
  profile_unique : ∀ p ∈ s.driverProfiles, ∀ q ∈ s.driverProfiles,
    p.driverApplicationId = q.driverApplicationId → p = q

/-- Whatever calls run, overlap, throw or stop, every driver has a profile,
every profile an application of its own user, and every application that was
sent for review its documents and its vehicle. -/
theorem onboarding_complete (cfg : Config) (fresh : FreshUsers) (ms : List OnboardingMove) :
    ((onboardingPool fresh).run (onboardingSystem cfg) ms).world.shared.OnboardingComplete where
  toOnboarded := (onboardingPool_sound cfg fresh ms).1
  profile_user _ hp _ hq h := DriverProfile.eq_of_userId hp hq h
  profile_unique _ hp _ hq h := DriverProfile.eq_of_driverApplicationId hp hq h

end Reedr
