import Reedr.Library.Progress
import Reedr.Onboarding.Verification

/-!
# Every applicant can become a driver

An application is only accepted in some statuses, and a late write can take it
back to an earlier one. In none of the states so reached is an applicant stuck:
the steps of the application, taken in order, lead to a profile and to driver
mode, whatever calls are in flight.
-/

namespace Reedr
open Relational Interleaving

namespace Registry
variable {cfg : Config} {s : Registry}

section Lookups
variable {a : DriverApplication} (ha : a ∈ s.driverApplications)
include ha

theorem applicationByUser_of_mem :
    s.driverApplications.find? (fun x => x.userId = a.userId) = some a :=
  Table.find?_of_unique ha (decide_eq_true rfl) fun _ hx hu =>
    Table.eq_of_clash hx ha (DriverApplication.clash_iff.mpr (.inr (.inl (of_decide_eq_true hu))))

theorem application_of_mem :
    s.driverApplications.find? (fun x => x.id = a.id) = some a :=
  Table.find?_of_unique ha (decide_eq_true rfl) fun _ hx hid =>
    DriverApplication.eq_of_id hx ha (of_decide_eq_true hid)

end Lookups

section Writes
variable (cfg)

/-- An application is created for a user who has none. -/
theorem createApplication_isOk {userId uuid : Id}
    (huser : ∀ a ∈ s.driverApplications, a.userId ≠ userId)
    (huuid : ∀ a ∈ s.driverApplications, a.id ≠ uuid) :
    ∃ a s', exec cfg (.createApplication userId uuid) s = .ok (a, s') := by
  obtain ⟨t, ht⟩ := Table.create_eq_ok (t := s.driverApplications)
    (r := { id := uuid, userId }) fun x hx hc => by
      rcases DriverApplication.clash_iff.mp hc with hid | hu | ⟨plate, -, hp⟩
      · exact huuid x hx hid
      · exact huser x hx hu
      · cases hp
  refine ⟨{ id := uuid, userId }, { s with driverApplications := t }, ?_⟩
  rw [exec, createApplication, ht]
  rfl

/-- A write to an application goes through when no other has its plate number. -/
theorem updateApplication_isOk {a : DriverApplication} (ha : a ∈ s.driverApplications)
    (write : ApplicationWrite)
    (hplate : ∀ b ∈ s.driverApplications, b.id ≠ a.id → ∀ plate,
      (write.apply a).plateNumber = some plate → b.plateNumber ≠ some plate) :
    ∃ a' s', exec cfg (.updateApplication a.id write) s = .ok (a', s') := by
  obtain ⟨a', t, ht⟩ := Table.update_of_apart (p := fun x => x.id = a.id) (f := write.apply) ha
    (decide_eq_true rfl)
    (fun x _ y _ hxa hya => DriverApplication.clash_iff.mpr
      (.inl ((of_decide_eq_true hxa).trans (of_decide_eq_true hya).symm)))
    (fun x hx b hb hxa hba => by
      obtain rfl := DriverApplication.eq_of_id hx ha (of_decide_eq_true hxa)
      have hne : b.id ≠ x.id := of_decide_eq_false hba
      have hsame := DriverApplication.identity_eq.mp (write.apply_identity x)
      rw [DriverApplication.clash_iff]
      rintro (hid | hu | ⟨plate, hp, hpb⟩)
      · exact hne (hsame.1.symm.trans hid).symm
      · have hclash := DriverApplication.clash_iff.mpr (.inr (.inl (hsame.2.symm.trans hu)))
        exact hne (congrArg _ (Table.eq_of_clash hx hb hclash).symm)
      · exact hplate b hb hne plate hp hpb)
  refine ⟨a', { s with driverApplications := t }, ?_⟩
  rw [exec, updateApplication, ht]
  rfl

/-- A write that leaves the plate number alone always goes through. -/
theorem updateApplication_isOk_of_plate {a : DriverApplication} (ha : a ∈ s.driverApplications)
    (write : ApplicationWrite) (hsame : (write.apply a).plateNumber = a.plateNumber) :
    ∃ a' s', exec cfg (.updateApplication a.id write) s = .ok (a', s') := by
  refine updateApplication_isOk cfg ha write fun b hb hne plate hp hpb => ?_
  have hclash := DriverApplication.clash_iff.mpr (.inr (.inr ⟨plate, hsame ▸ hp, hpb⟩))
  exact hne (congrArg _ (Table.eq_of_clash ha hb hclash).symm)

/-- An approval goes through when neither the user nor the application has a profile. -/
theorem approveBatch_isOk {a : DriverApplication} (ha : a ∈ s.driverApplications)
    {userId uuid : Id} (now : Millis) (huuid : ∀ p ∈ s.driverProfiles, p.id ≠ uuid)
    (huser : ∀ p ∈ s.driverProfiles, p.userId ≠ userId)
    (happlication : ∀ p ∈ s.driverProfiles, p.driverApplicationId ≠ a.id) :
    ∃ a' s', exec cfg (.approveBatch a.id userId uuid now) s = .ok (a', s') := by
  obtain ⟨a', t, ht⟩ := Table.update_isOk (p := fun x => x.id = a.id)
    (f := (ApplicationWrite.verify now).apply) ha (decide_eq_true rfl) fun _ => rfl
  obtain ⟨profiles, hp⟩ := Table.create_eq_ok (t := s.driverProfiles)
    (r := { id := uuid, userId, driverApplicationId := a.id }) fun x hx hc => by
      rcases DriverProfile.clash_iff.mp hc with hid | hu | happ
      · exact huuid x hx hid
      · exact huser x hx hu
      · exact happlication x hx happ
  refine ⟨a', { s with
    driverApplications := t
    ride := { s.ride with tables := { s.ride.tables with driverProfiles := profiles } } }, ?_⟩
  rw [exec, approveBatch, ht]
  simp only [bind, Except.bind]
  rw [RideTables.createDriverProfile, hp]
  rfl

/-- A document is stored under a new id, or in the place of the one there is. -/
theorem upsertDocument_isOk {driverApplicationId uuid : Id} {type : DriverDocumentType}
    {document : StoredDocument} (huuid : ∀ d ∈ s.driverDocuments, d.id ≠ uuid) :
    ∃ d s', exec cfg (.upsertDocument driverApplicationId type document uuid) s = .ok (d, s') ∧
      (∃ d' ∈ s'.driverDocuments, d'.slot = (driverApplicationId, type)) ∧
      ∀ d' ∈ s'.driverDocuments, d'.id = uuid ∨ ∃ d₀ ∈ s.driverDocuments, d₀.id = d'.id := by
  obtain ⟨d, t, ht⟩ := Table.upsert_isOk (t := s.driverDocuments)
    (p := fun d => d.driverApplicationId = driverApplicationId ∧ d.type = type)
    (r := ⟨uuid, driverApplicationId, type, document.storageKey, document.originalFilename,
      document.mimeType, document.sizeBytes⟩)
    (f := fun d => { d with
      storageKey := document.storageKey
      originalFilename := document.originalFilename
      mimeType := document.mimeType
      sizeBytes := document.sizeBytes })
    (fun _ => rfl) fun hnone y hy hc => by
      rcases DriverDocument.clash_iff.mp hc with hid | hs
      · exact huuid y hy hid
      · exact of_decide_eq_false (hnone y hy) hs
  have hok : s.upsertDocument driverApplicationId type document uuid =
      .ok (d, { s with driverDocuments := t }) := by
    rw [upsertDocument, ht]
    rfl
  exact ⟨d, { s with driverDocuments := t }, by rw [exec, hok]; rfl, upsertDocument_row hok⟩

theorem setActiveProfile_isOk {u : User} (hu : u ∈ s.users) (profile : ActiveProfile) :
    ∃ u' s', exec cfg (.setActiveProfile u.id profile) s = .ok (u', s') := by
  obtain ⟨u', t, ht⟩ := Table.update_isOk (p := fun x => x.id = u.id)
    (f := fun u => { u with activeProfile := profile }) hu (decide_eq_true rfl) fun _ => rfl
  refine ⟨u', { s with users := t }, ?_⟩
  rw [exec, setActiveProfile, ht]
  rfl

end Writes

/-- The application of the user stands at the status, with documents of the types,
and no other application has the plate number. -/
structure Applied (s : Registry) (userId : Id) (plate : String)
    (status : DriverApplicationStatus) (types : List DriverDocumentType) : Prop where
  application : ∃ a ∈ s.driverApplications, a.userId = userId ∧ a.status = status ∧
    ∀ t ∈ types, ∃ d ∈ s.driverDocuments, d.slot = (a.id, t)
  plate : ∀ b ∈ s.driverApplications, b.userId ≠ userId → b.plateNumber ≠ some plate

/-- A write to the application moves it on, with its documents. -/
theorem Applied.written {s' : Registry} {a : DriverApplication} {write : ApplicationWrite}
    {types : List DriverDocumentType} {plate : String} (ha : a ∈ s.driverApplications)
    (hdocs : ∀ t ∈ types, ∃ d ∈ s.driverDocuments, d.slot = (a.id, t))
    (hplate : ∀ b ∈ s.driverApplications, b.userId ≠ a.userId → b.plateNumber ≠ some plate)
    {b} (hx : exec cfg (.updateApplication a.id write) s = .ok (b, s')) :
    s'.Applied a.userId plate (write.apply a).status types := by
  cases exec_wrote hx with
  | nothing ho => cases ho
  | updateApplication hu happ hd hp =>
      have hsame := DriverApplication.identity_eq.mp (write.apply_identity a)
      constructor
      · have hmem := happ.mem ha
        rw [ApplicationWrite.applyTo, if_pos rfl] at hmem
        exact ⟨_, hmem, hsame.2, rfl, hsame.1.symm ▸ hd.symm ▸ hdocs⟩
      · intro c' hc' hne
        obtain ⟨c, hc, rfl⟩ := (happ c').mp hc'
        by_cases hid : c.id = a.id
        · obtain rfl := DriverApplication.eq_of_id hc ha hid
          exact absurd (DriverApplication.identity_eq.mp (write.applyTo_identity c.id c)).2 hne
        · rw [ApplicationWrite.applyTo, if_neg hid] at hne ⊢
          exact hplate c hc hne

/-- What an upload has done to the registry. -/
structure Uploaded (s : Registry) (id : Id) (u : Upload) (s' : Registry) : Prop where
  applications : s'.driverApplications = s.driverApplications
  documents : s.driverDocuments.Persists DriverDocument.slot s'.driverDocuments
  stored : ∃ d ∈ s'.driverDocuments, d.slot = (id, u.type)
  ids : ∀ d' ∈ s'.driverDocuments, d'.id = u.rowUuid ∨ ∃ d ∈ s.driverDocuments, d.id = d'.id

end Registry

section Calls
variable {cfg : Config} {n : Nat} {i : OnboardingInvocation} {w : OnboardingWorld}
open DriverApplicationService

/-- A statement whose effect is known goes through. -/
private theorem execute_returns {o : OnboardingStmt} {Q : o.Res → OnboardingWorld → Prop}
    {b : o.Res} {s : Registry} (hx : Registry.exec cfg o w.shared = .ok (b, s))
    (h : Q b (w.commit n i o s)) :
    (execute o).Returns (onboardingSystem cfg) n i Q w :=
  .perform hx h

theorem DriverDocumentsService.upload_returns {id : Id} {u : Upload}
    (hmime : u.file.mimetype ∈ DriverDocumentsService.allowedMimeTypes)
    (huuid : ∀ d ∈ w.shared.driverDocuments, d.id ≠ u.rowUuid) :
    (DriverDocumentsService.upload id u).Returns (onboardingSystem cfg) n i
      (fun _ w' => w.shared.Uploaded id u w'.shared) w := by
  refine .ensure_bind hmime (.perform_bind rfl (.perform_bind rfl ?_))
  let key := DriverDocumentsService.storageKey id u
  let saved : Registry :=
    { w.shared with files := Function.update w.shared.files key (some u.file.buffer) }
  let document : StoredDocument := ⟨key, u.file.originalname, u.file.mimetype, u.file.size⟩
  obtain ⟨d, s', hx, hstored, hids⟩ : ∃ d s',
      Registry.exec cfg (.upsertDocument id u.type document u.rowUuid) saved = .ok (d, s') ∧
        (∃ d' ∈ s'.driverDocuments, d'.slot = (id, u.type)) ∧
        ∀ d' ∈ s'.driverDocuments, d'.id = u.rowUuid ∨
          ∃ d₀ ∈ saved.driverDocuments, d₀.id = d'.id :=
    Registry.upsertDocument_isOk cfg huuid
  refine .perform_bind hx ?_
  have hdone : w.shared.Uploaded id u s' := by
    cases Registry.exec_wrote hx with
    | nothing ho => cases ho
    | upsertDocument hu ha hd hp => exact ⟨ha, hd, hstored, hids⟩
  split
  · next previous _ =>
      split
      · refine .bind (.recover_perform (σ := onboardingSignature)
          (o := .deleteFile previous.storageKey) (fun b s hx => ?_) fun _ => ?_)
        · cases hx
          exact ⟨hdone.1, hdone.2, hdone.3, hdone.4⟩
        · exact hdone
      · exact hdone
  · exact hdone

private theorem findByUserId_returns {a : DriverApplication}
    (ha : a ∈ w.shared.driverApplications) :
    (findByUserId a.userId).Returns (onboardingSystem cfg) n i
      (fun x w' => x = a ∧ w'.shared = w.shared) w :=
  .perform_bind rfl (.required (Registry.applicationByUser_of_mem ha) ⟨rfl, rfl⟩)

/-- The statuses in which the steps are accepted. -/
def Editable (status : DriverApplicationStatus) : Prop :=
  status ≠ .underReview ∧ status ≠ .verified ∧ status ≠ .rejected

instance (status : DriverApplicationStatus) : Decidable (Editable status) :=
  inferInstanceAs (Decidable (_ ∧ _ ∧ _))

private theorem loadEditable_returns {a : DriverApplication}
    (ha : a ∈ w.shared.driverApplications) (hst : Editable a.status) :
    (loadEditable a.userId).Returns (onboardingSystem cfg) n i
      (fun x w' => x = a ∧ w'.shared = w.shared) w := by
  refine .bind ((findByUserId_returns ha).mono ?_)
  rintro x w' ⟨rfl, hw⟩
  exact .ensure_bind ⟨hst.1, hst.2.1⟩ (.ensure_bind hst.2.2 ⟨rfl, hw⟩)

variable {userId : Id} {plate : String} {status : DriverApplicationStatus}
  {types : List DriverDocumentType}

theorem DriverApplicationService.start_returns {uuid : Id}
    (hnone : ∀ a ∈ w.shared.driverApplications, a.userId ≠ userId)
    (hplate : ∀ a ∈ w.shared.driverApplications, a.userId ≠ userId → a.plateNumber ≠ some plate)
    (huuid : ∀ a ∈ w.shared.driverApplications, a.id ≠ uuid) :
    (start userId uuid).Returns (onboardingSystem cfg) n i
      (fun _ w' => w'.shared.Applied userId plate .notStarted []) w := by
  refine .perform_bind rfl ?_
  have hfind : w.shared.driverApplications.find? (fun x => x.userId = userId) = none := by
    cases hf : w.shared.driverApplications.find? (fun x => x.userId = userId) with
    | none => rfl
    | some a =>
        obtain ⟨ha, hu⟩ := Table.find?_some hf
        exact absurd (of_decide_eq_true hu) (hnone a ha)
  rw [hfind]
  obtain ⟨a, s', hx⟩ := Registry.createApplication_isOk cfg hnone huuid
  refine execute_returns (o := .createApplication userId uuid) hx ?_
  cases Registry.exec_wrote hx with
  | nothing ho => cases ho
  | createApplication hu ha hd hp fresh =>
      refine ⟨⟨_, ha.mem_new, rfl, rfl, fun t ht => absurd ht (List.not_mem_nil)⟩, ?_⟩
      intro b hb hne
      rcases (ha b).mp hb with hb | rfl
      · exact hplate b hb hne
      · exact absurd rfl hne

theorem DriverApplicationService.restart_returns {uuid : Id}
    (h : w.shared.Applied userId plate .rejected types) :
    (start userId uuid).Returns (onboardingSystem cfg) n i
      (fun _ w' => w'.shared.Applied userId plate .notStarted types) w := by
  obtain ⟨⟨a, ha, rfl, hst, hdocs⟩, hplate⟩ := h
  refine .perform_bind rfl ?_
  rw [Registry.applicationByUser_of_mem ha]
  refine .ensure_bind (by rw [hst]; decide) ?_
  rw [if_pos hst]
  obtain ⟨b, s', hx⟩ := Registry.updateApplication_isOk_of_plate cfg ha .restart rfl
  exact execute_returns (o := .updateApplication a.id .restart) hx (.written ha hdocs hplate hx)

theorem DriverApplicationService.submitPersonalInfo_returns
    (h : w.shared.Applied userId plate status types) (hst : Editable status)
    (dto : SubmitPersonalInfoDto) :
    (submitPersonalInfo userId dto).Returns (onboardingSystem cfg) n i
      (fun _ w' => w'.shared.Applied userId plate .personalInfoSubmitted types) w := by
  obtain ⟨⟨a, ha, rfl, rfl, hdocs⟩, hplate⟩ := h
  refine .bind ((loadEditable_returns ha hst).mono ?_)
  rintro x w' ⟨rfl, hw⟩
  rw [← hw] at ha hdocs hplate
  obtain ⟨b, s', hx⟩ := Registry.updateApplication_isOk_of_plate cfg ha (.personalInfo dto) rfl
  exact execute_returns hx (.written ha hdocs hplate hx)

theorem DriverApplicationService.submitLicense_returns
    (h : w.shared.Applied userId plate status types) (hst : Editable status)
    (dto : SubmitLicenseDto) {licenseImage : UploadableFile} {keyUuid rowUuid : Id}
    (hmime : licenseImage.mimetype ∈ DriverDocumentsService.allowedMimeTypes)
    (huuid : ∀ d ∈ w.shared.driverDocuments, d.id ≠ rowUuid) :
    (submitLicense userId dto licenseImage keyUuid rowUuid).Returns (onboardingSystem cfg) n i
      (fun _ w' => w'.shared.Applied userId plate .licenseSubmitted [.driversLicense]) w := by
  obtain ⟨⟨a, ha, rfl, rfl, -⟩, hplate⟩ := h
  refine .bind ((loadEditable_returns ha hst).mono ?_)
  rintro x w₁ ⟨rfl, hw₁⟩
  rw [← hw₁] at ha huuid hplate
  refine .bind ((DriverDocumentsService.upload_returns
    (u := ⟨.driversLicense, licenseImage, keyUuid, rowUuid⟩) hmime huuid).mono ?_)
  rintro _ w₂ hup
  rw [← hup.applications] at ha hplate
  obtain ⟨b, s', hx⟩ := Registry.updateApplication_isOk_of_plate cfg ha (.license dto) rfl
  refine execute_returns hx (.written ha (fun t ht => ?_) hplate hx)
  rw [List.mem_singleton.mp ht]
  exact hup.stored

private theorem assertPlateNumberAvailable_returns {plateNumber ownApplicationId : Id}
    (hplate : ∀ a ∈ w.shared.driverApplications, a.plateNumber = some plateNumber →
      a.id = ownApplicationId) :
    (assertPlateNumberAvailable plateNumber ownApplicationId).Returns (onboardingSystem cfg) n i
      (fun _ w' => w'.shared = w.shared) w := by
  refine .perform_bind rfl ?_
  cases hf : w.shared.driverApplications.find? (fun a => a.plateNumber = some plateNumber) with
  | none => exact rfl
  | some a =>
      obtain ⟨ha, hp⟩ := Table.find?_some hf
      exact .ensure (hplate a ha (of_decide_eq_true hp)) rfl

/-- With the licence there and a plate number of its own, the other two documents
send the application to review. -/
theorem DriverApplicationService.submitVehicle_returns {dto : SubmitVehicleDto}
    {photo registration : Upload}
    (h : w.shared.Applied userId dto.plateNumber status [.driversLicense])
    (hst : Editable status)
    (hphoto : photo.type = .vehiclePhoto) (hregistration : registration.type = .vehicleRegistration)
    (hmime : photo.file.mimetype ∈ DriverDocumentsService.allowedMimeTypes)
    (hmime' : registration.file.mimetype ∈ DriverDocumentsService.allowedMimeTypes)
    (huuid : ∀ d ∈ w.shared.driverDocuments, d.id ≠ photo.rowUuid)
    (huuid' : ∀ d ∈ w.shared.driverDocuments, d.id ≠ registration.rowUuid)
    (hne : photo.rowUuid ≠ registration.rowUuid) :
    (submitVehicle userId dto [photo, registration]).Returns (onboardingSystem cfg) n i
      (fun _ w' => w'.shared.Applied userId dto.plateNumber .underReview requiredDocumentTypes)
      w := by
  obtain ⟨⟨a, ha, rfl, rfl, hdocs⟩, hplate⟩ := h
  refine .bind ((loadEditable_returns ha hst).mono ?_)
  rintro x w₁ ⟨rfl, hw₁⟩
  rw [← hw₁] at ha hdocs hplate huuid huuid'
  have hown : ∀ b ∈ w₁.shared.driverApplications, b.plateNumber = some dto.plateNumber →
      b.id = x.id := by
    intro b hb hp
    have hu : b.userId = x.userId := by_contra fun hne => hplate b hb hne hp
    exact congrArg _ (Table.eq_of_clash hb ha (DriverApplication.clash_iff.mpr (.inr (.inl hu))))
  refine .bind ((assertPlateNumberAvailable_returns hown).mono ?_)
  rintro _ w₂ hw₂
  rw [← hw₂] at ha hdocs hplate huuid huuid' hown
  refine .bind (.bind (.void ((DriverDocumentsService.upload_returns hmime huuid).mono
    fun _ w₃ hup => ?_)))
  have huuid' : ∀ d ∈ w₃.shared.driverDocuments, d.id ≠ registration.rowUuid := by
    intro d hd hid
    rcases hup.ids d hd with hnew | ⟨d₀, hd₀, hold⟩
    · exact hne (hnew.symm.trans hid)
    · exact huuid' d₀ hd₀ (hold.trans hid)
  refine .bind (.void ((DriverDocumentsService.upload_returns hmime' huuid').mono
    fun _ w₄ hup' => ?_))
  have happlications := hup'.applications.trans hup.applications
  have hall : ∀ t ∈ requiredDocumentTypes, ∃ d ∈ w₄.shared.driverDocuments,
      d.slot = (x.id, t) := by
    have later {t : DriverDocumentType} (ht : ∃ d ∈ w₃.shared.driverDocuments, d.slot = (x.id, t)) :
        ∃ d ∈ w₄.shared.driverDocuments, d.slot = (x.id, t) := by
      obtain ⟨d, hd, hslot⟩ := ht
      obtain ⟨d', hd', hdd⟩ := hup'.documents d hd
      exact ⟨d', hd', hdd.trans hslot⟩
    intro t ht
    simp only [requiredDocumentTypes, List.mem_cons, List.not_mem_nil, or_false] at ht
    rcases ht with rfl | rfl | rfl
    · obtain ⟨d, hd, hslot⟩ := hdocs _ (List.mem_singleton_self _)
      obtain ⟨d', hd', hdd⟩ := hup.documents d hd
      exact later ⟨d', hd', hdd.trans hslot⟩
    · exact hregistration ▸ hup'.stored
    · exact later (hphoto ▸ hup.stored)
  refine .bind (.perform_bind rfl (.done (.ensure_bind ?_ (.perform_bind rfl ?_))))
  · rw [List.filter_eq_nil_iff]
    intro t ht
    obtain ⟨d, hd, hslot⟩ := hall t ht
    rw [DriverDocument.slot, Prod.mk.injEq] at hslot
    have hmem : t ∈ (w₄.shared.driverDocuments.findMany
        fun d => d.driverApplicationId = x.id).map fun d => d.type :=
      List.mem_map.mpr ⟨d, Table.mem_findMany.mpr ⟨hd, decide_eq_true hslot.1⟩, hslot.2⟩
    simpa using hmem
  · rw [← happlications] at ha hplate hown
    obtain ⟨b, s', hx⟩ := Registry.updateApplication_isOk cfg ha
      (.vehicle dto w₄.shared.ride.clock) fun b hb hne _ hp hpb => by
        cases hp
        exact hne (hown b hb hpb)
    exact execute_returns (o := .updateApplication x.id (.vehicle dto w₄.shared.ride.clock)) hx
      (.written ha hall hplate hx)

theorem DriverApplicationService.review_returns {a : DriverApplication}
    (ha : a ∈ w.shared.driverApplications) (hst : a.status = .underReview) {uuid : Id}
    (huuid : ∀ p ∈ w.shared.driverProfiles, p.id ≠ uuid)
    (huser : ∀ p ∈ w.shared.driverProfiles, p.userId ≠ a.userId)
    (happlication : ∀ p ∈ w.shared.driverProfiles, p.driverApplicationId ≠ a.id) :
    (review a.id .verified none uuid).Returns (onboardingSystem cfg) n i
      (fun _ w' => ∃ p ∈ w'.shared.driverProfiles, p.userId = a.userId) w := by
  refine .bind (.perform_bind rfl (.required (Registry.application_of_mem ha) ?_))
  refine .ensure_bind hst (.perform_bind rfl ?_)
  obtain ⟨b, s', hx⟩ := Registry.approveBatch_isOk cfg ha w.shared.ride.clock
    huuid huser happlication
  refine execute_returns (o := .approveBatch a.id a.userId uuid w.shared.ride.clock) hx ?_
  cases Registry.exec_wrote hx with
  | nothing ho => cases ho
  | approveBatch hu ha hd hp => exact ⟨_, hp.mem_new, rfl⟩

theorem UsersService.setActiveProfile_returns {u : User} (hu : u ∈ w.shared.users)
    (hp : ∃ p ∈ w.shared.driverProfiles, p.userId = u.id) :
    (UsersService.setActiveProfile cfg u.id .driver).Returns (onboardingSystem cfg) n i
      (fun _ w' => ∃ u' ∈ w'.shared.users, u'.id = u.id ∧ u'.activeProfile = .driver) w := by
  obtain ⟨p, hp, hpu⟩ := hp
  have hfind : w.shared.ride.tables.findDriverProfileByUser u.id = some p :=
    hpu ▸ RideTables.findDriverProfileByUser_of_mem hp
  refine .perform_bind rfl (.required_bind hfind ?_)
  obtain ⟨b, s', hx⟩ := Registry.setActiveProfile_isOk cfg hu .driver
  refine .perform_bind hx ?_
  cases Registry.exec_wrote hx with
  | nothing ho => cases ho
  | setActiveProfile hus ha hd hp =>
      have hmem := hus.mem hu
      rw [if_pos rfl] at hmem
      exact ⟨_, hmem, rfl, rfl⟩

end Calls

/-- An application is only verified together with the creation of its profile. -/
def Registry.VerifiedHaveProfiles (s : Registry) : Prop :=
  ∀ a ∈ s.driverApplications, a.status = .verified →
    ∃ p ∈ s.driverProfiles, p.driverApplicationId = a.id

section Commit
variable {cfg : Config} {w : OnboardingWorld} {i : OnboardingInvocation} {o : OnboardingStmt}
  {b : o.Res} {s : Registry}

theorem verifiedHaveProfiles_commit (hJ : Decided Linked LaterOn w i o)
    (h : w.shared.VerifiedHaveProfiles) (hx : Registry.exec cfg o w.shared = .ok (b, s)) :
    s.VerifiedHaveProfiles := by
  have hwrote := Registry.exec_wrote hx
  have hlater := Registry.Matures.of_wrote hwrote
  have kept {a : DriverApplication} (ha : a ∈ w.shared.driverApplications)
      (hst : a.status = .verified) : ∃ p ∈ s.driverProfiles, p.driverApplicationId = a.id := by
    obtain ⟨p, hp, hpa⟩ := h a ha hst
    obtain ⟨p', hp', hpp⟩ := hlater.profiles p hp
    exact ⟨p', hp', (DriverProfile.identity_eq.mp hpp).2.2.trans hpa⟩
  have same (ha : s.driverApplications = w.shared.driverApplications) :
      s.VerifiedHaveProfiles := fun a hm => kept (ha ▸ hm)
  clear hlater hx
  generalize w.shared = s₀ at *
  cases hwrote with
  | nothing ho hu ha hd hp => exact same ha
  | createApplication hu ha hd hp fresh =>
      intro a hm hst
      rcases (ha a).mp hm with hm | rfl
      · exact kept hm hst
      · cases hst
  | @updateApplication id write _ _ hu ha hd hp =>
      intro a' hm' hst
      obtain ⟨a, hm, rfl⟩ := (ha a').mp hm'
      rw [(DriverApplication.identity_eq.mp (write.applyTo_identity id a)).1]
      unfold ApplicationWrite.applyTo at hst
      split at hst
      · cases write with
        | verify now => exact hJ.elim
        | _ => cases hst
      · exact kept hm hst
  | @approveBatch id userId uuid now _ _ hu ha hd hp =>
      intro a' hm' hst
      obtain ⟨a, hm, rfl⟩ := (ha a').mp hm'
      rw [(DriverApplication.identity_eq.mp
        ((ApplicationWrite.verify now).applyTo_identity id a)).1]
      by_cases hid : a.id = id
      · exact ⟨_, hp.mem_new, hid.symm⟩
      · rw [ApplicationWrite.applyTo, if_neg hid] at hst
        exact kept hm hst
  | upsertDocument hu ha hd hp => exact same ha
  | setActiveProfile hu ha hd hp => exact same ha
  | ride hu ha hd hr => exact same ha

end Commit

/-- What holds in every world for a user who wants to become a driver. -/
structure Applicant (userId : Id) (w : OnboardingWorld) : Prop where
  verified : w.shared.VerifiedHaveProfiles
  user : ∃ u ∈ w.shared.users, u.id = userId

theorem applicant_discipline (cfg : Config) (userId : Id) :
    Discipline (onboardingSystem cfg) (fun w => Linked w ∧ Applicant userId w) LaterOn
      (Decided Linked LaterOn) :=
  (onboarding_discipline cfg).also fun _ hK hJ hx =>
    ⟨verifiedHaveProfiles_commit hJ hK.verified hx, (Registry.exec_users hx userId).mpr hK.user⟩

/-- What a user fills into the forms of the three steps. -/
structure Forms where
  personal : SubmitPersonalInfoDto
  license : SubmitLicenseDto
  licenseImage : UploadableFile
  licenseImage_allowed : licenseImage.mimetype ∈ DriverDocumentsService.allowedMimeTypes
  vehicle : SubmitVehicleDto
  vehiclePhoto : UploadableFile
  vehiclePhoto_allowed : vehiclePhoto.mimetype ∈ DriverDocumentsService.allowedMimeTypes
  registrationDocument : UploadableFile
  registrationDocument_allowed :
    registrationDocument.mimetype ∈ DriverDocumentsService.allowedMimeTypes

/-- The files of the vehicle step, in the order of their fields. -/
def Forms.files (forms : Forms) (uuid : Id) (uuid' : Id) : List Upload :=
  [⟨.vehiclePhoto, forms.vehiclePhoto, uuid, uuid⟩,
    ⟨.vehicleRegistration, forms.registrationDocument, uuid', uuid'⟩]

/-- The steps of the user with these forms, and the approval by a reviewer. -/
def OnboardingInvocation.OnTheWay (userId : Id) (forms : Forms) : OnboardingInvocation → Prop
  | .start id _ => id = userId
  | .submitPersonalInfo id dto => id = userId ∧ dto = forms.personal
  | .submitLicense id dto licenseImage _ _ =>
      id = userId ∧ dto = forms.license ∧ licenseImage = forms.licenseImage
  | .submitVehicle id dto files =>
      id = userId ∧ dto = forms.vehicle ∧ ∃ uuid uuid', files = forms.files uuid uuid'
  | .review _ decision _ _ => decision = .verified
  | .setActiveProfile id _ => id = userId
  | _ => False

/-- The user is in driver mode. -/
def DriverMode (userId : Id) (w : OnboardingWorld) : Prop :=
  ∃ u ∈ w.shared.users, u.id = userId ∧ u.activeProfile = .driver

section Attains
variable {cfg : Config} {userId : Id} {forms : Forms} {p : OnboardingPool}
open DriverApplicationService

/-- A pool that any calls may have led to, with any calls in flight. -/
private abbrev Underway (cfg : Config) (userId : Id) (p : OnboardingPool) : Prop :=
  p.Sound (onboardingSystem cfg) (fun w => Linked w ∧ Applicant userId w) LaterOn
    (Decided Linked LaterOn)

private abbrev Attainable (cfg : Config) (userId : Id) (forms : Forms) (p : OnboardingPool) :
    Prop :=
  p.Attains (onboardingSystem cfg) (OnboardingInvocation.OnTheWay userId forms)
    (DriverMode userId)

private theorem attains_of_profile (h : Underway cfg userId p)
    (hp : ∃ q ∈ p.world.shared.driverProfiles, q.userId = userId) :
    Attainable cfg userId forms p := by
  obtain ⟨u, hu, rfl⟩ := h.1.2.user
  exact .next (i := .setActiveProfile u.id .driver) rfl
    (.void (UsersService.setActiveProfile_returns hu hp)) fun hdone => .now hdone

private theorem attains_of_underReview {plate : String} {types : List DriverDocumentType}
    (h : Underway cfg userId p) (happ : p.world.shared.Applied userId plate .underReview types) :
    Attainable cfg userId forms p := by
  by_cases hp : ∃ q ∈ p.world.shared.driverProfiles, q.userId = userId
  · exact attains_of_profile h hp
  · obtain ⟨⟨a, ha, rfl, hst, -⟩, -⟩ := happ
    have hnone : ∀ q ∈ p.world.shared.driverProfiles, q.userId ≠ a.userId :=
      fun q hq hu => hp ⟨q, hq, hu⟩
    obtain ⟨uuid, huuid⟩ := exists_unused (p.world.shared.driverProfiles.rows.map fun q => q.id)
    refine .next (i := .review a.id .verified none uuid) rfl (.void (review_returns ha hst
      (fun q hq hid => huuid (List.mem_map.mpr ⟨q, hq, hid⟩)) hnone fun q hq hqa => ?_))
      fun hp => attains_of_profile ((applicant_discipline cfg a.userId).sound_serve h _) hp
    -- A profile on this application would belong to its user.
    obtain ⟨a', ha', hid, hu⟩ := h.1.1.profile_application q hq
    obtain rfl := DriverApplication.eq_of_id ha' ha (hid.trans hqa)
    exact hnone q hq hu.symm

private theorem attains_of_license {status : DriverApplicationStatus}
    (h : Underway cfg userId p) (hst : Editable status)
    (happ : p.world.shared.Applied userId forms.vehicle.plateNumber status [.driversLicense]) :
    Attainable cfg userId forms p := by
  let ids := p.world.shared.driverDocuments.rows.map fun d => d.id
  obtain ⟨id₁, hid₁⟩ := exists_unused ids
  obtain ⟨id₂, hid₂⟩ := exists_unused (id₁ :: ids)
  refine .next (i := .submitVehicle userId forms.vehicle (forms.files id₁ id₂))
    ⟨rfl, rfl, id₁, id₂, rfl⟩ (.void (submitVehicle_returns happ hst rfl rfl
      forms.vehiclePhoto_allowed forms.registrationDocument_allowed (fun d hd hid => hid₁ ?_)
      (fun d hd hid => hid₂ ?_) ?_))
    fun happ => attains_of_underReview ((applicant_discipline cfg userId).sound_serve h _) happ
  · exact List.mem_map.mpr ⟨d, hd, hid⟩
  · exact List.mem_cons_of_mem _ (List.mem_map.mpr ⟨d, hd, hid⟩)
  · rintro rfl
    exact hid₂ List.mem_cons_self

private theorem attains_of_personalInfo {types : List DriverDocumentType}
    (h : Underway cfg userId p) (happ : p.world.shared.Applied userId forms.vehicle.plateNumber
      .personalInfoSubmitted types) : Attainable cfg userId forms p := by
  obtain ⟨uuid, huuid⟩ := exists_unused (p.world.shared.driverDocuments.rows.map fun d => d.id)
  refine .next (i := .submitLicense userId forms.license forms.licenseImage uuid uuid)
    ⟨rfl, rfl, rfl⟩ (.void (submitLicense_returns happ (by decide) _ forms.licenseImage_allowed
      fun d hd hid => huuid (List.mem_map.mpr ⟨d, hd, hid⟩)))
    fun happ => attains_of_license ((applicant_discipline cfg userId).sound_serve h _)
      (by decide) happ

private theorem attains_of_editable {status : DriverApplicationStatus}
    {types : List DriverDocumentType} (h : Underway cfg userId p) (hst : Editable status)
    (happ : p.world.shared.Applied userId forms.vehicle.plateNumber status types) :
    Attainable cfg userId forms p :=
  .next (i := .submitPersonalInfo userId forms.personal) ⟨rfl, rfl⟩
    (.void (submitPersonalInfo_returns happ hst _)) fun happ =>
      attains_of_personalInfo ((applicant_discipline cfg userId).sound_serve h _) happ

/-- From every state that any interleaving of onboarding calls reaches, failed
ones included and others still in flight, every user can get into driver mode by
the three steps and a reviewer's approval, whatever they fill into the forms, as
long as the plate number is on no other user's application. -/
theorem driver_mode_attainable (cfg : Config) (fresh : FreshUsers) (ms : List OnboardingMove)
    {u : User} (hu : u ∈ fresh.users) (forms : Forms)
    (hplate : ∀ a ∈ ((onboardingPool fresh).run (onboardingSystem cfg)
        ms).world.shared.driverApplications,
      a.userId ≠ u.id → a.plateNumber ≠ some forms.vehicle.plateNumber) :
    ((onboardingPool fresh).run (onboardingSystem cfg) ms).Attains (onboardingSystem cfg)
      (OnboardingInvocation.OnTheWay u.id forms) (DriverMode u.id) := by
  have hinit : Applicant u.id (onboardingPool fresh).world :=
    ⟨fun a ha => absurd ha (Table.not_mem_empty a), u, hu, rfl⟩
  have h : Underway cfg u.id ((onboardingPool fresh).run (onboardingSystem cfg) ms) :=
    (applicant_discipline cfg u.id).sound_run
      (Discipline.sound_init _ ⟨linked_init fresh, hinit⟩) ms
  generalize (onboardingPool fresh).run (onboardingSystem cfg) ms = p at h hplate
  by_cases hex : ∃ a ∈ p.world.shared.driverApplications, a.userId = u.id
  · obtain ⟨a, ha, hau⟩ := hex
    have happ : p.world.shared.Applied u.id forms.vehicle.plateNumber a.status [] :=
      ⟨⟨a, ha, hau, rfl, fun t ht => absurd ht List.not_mem_nil⟩, hplate⟩
    by_cases hedit : Editable a.status
    · exact attains_of_editable h hedit happ
    · cases hst : a.status with
      | underReview => exact attains_of_underReview h (hst ▸ happ)
      | verified =>
          obtain ⟨q, hq, hqa⟩ := h.1.2.verified a ha hst
          obtain ⟨a', ha', hid, hqu⟩ := h.1.1.profile_application q hq
          obtain rfl := DriverApplication.eq_of_id ha' ha (hid.trans hqa)
          exact attains_of_profile h ⟨q, hq, hqu.symm.trans hau⟩
      | rejected =>
          refine .next (i := .start u.id u.id) rfl (.void (restart_returns (hst ▸ happ)))
            fun happ => ?_
          exact attains_of_editable ((applicant_discipline cfg u.id).sound_serve h _)
            (by decide) happ
      | _ => exact absurd (by rw [hst]; decide) hedit
  · obtain ⟨uuid, huuid⟩ := exists_unused
      (p.world.shared.driverApplications.rows.map fun a => a.id)
    refine .next (i := .start u.id uuid) rfl (.void (start_returns
      (fun a ha hau => hex ⟨a, ha, hau⟩) hplate fun a ha hid => huuid ?_)) fun happ => ?_
    · exact List.mem_map.mpr ⟨a, ha, hid⟩
    · exact attains_of_editable ((applicant_discipline cfg u.id).sound_serve h _)
        (by decide) happ

end Attains

/-- The forms of the applicant on whom two reviewers have decided at once. -/
def adaForms : Forms where
  personal := ⟨"Ada", 0, "1 Main Street"⟩
  license := ⟨"L-1", 1000⟩
  licenseImage := ⟨"bytes", "image/png", "licence.png", 5⟩
  licenseImage_allowed := by decide
  vehicle := ⟨"Make", "Model", 2020, "blue", "PLATE", 1000⟩
  vehiclePhoto := ⟨"bytes", "image/png", "photo.png", 5⟩
  vehiclePhoto_allowed := by decide
  registrationDocument := ⟨"bytes", "application/pdf", "registration.pdf", 5⟩
  registrationDocument_allowed := by decide

theorem driver_mode_attainable_doubleReview :
    ((onboardingPool oneApplicant).run (onboardingSystem .default) doubleReview).Attains
      (onboardingSystem .default) (OnboardingInvocation.OnTheWay "applicant" adaForms)
      (DriverMode "applicant") :=
  driver_mode_attainable .default oneApplicant doubleReview (u := { id := "applicant" })
    (by decide) adaForms (by decide +kernel)

end Reedr
