import Reedr.Library.History
import Reedr.Onboarding.Verification

/-!
# What stays on record

From its submission for review on, an application is closed to every call but the
review: the steps refuse it before their first write, and what is uploaded to it
later is of an optional type. Of calls that are served one after another, none
changes the step fields, the required documents or their files until the
application is rejected.

## Implementation notes

A storage key begins with the application and the type it is for. It can be read
back because an application's id has no slash and a type's text no dash.
-/

namespace Reedr
open Relational Interleaving

/-- The application is with the reviewer, or has passed the review. -/
def DriverApplicationStatus.closed : DriverApplicationStatus → Bool
  | .underReview | .verified => true
  | _ => false

/-- What the applicant has filled in. -/
def DriverApplication.steps (a : DriverApplication) : DriverApplication :=
  { a with
    status := .notStarted
    rejectionReason := none
    submittedAt := none
    reviewedAt := none }

/-- The key is one that uploads of the type for the application generate. -/
def KeyFor (driverApplicationId : Id) (type : DriverDocumentType) (key : String) : Prop :=
  ∃ rest, key = "driver-documents/" ++ driverApplicationId ++ "/" ++ type.text ++ "-" ++ rest

theorem storageKey_keyFor (driverApplicationId : Id) (u : Upload) :
    KeyFor driverApplicationId u.type
      (DriverDocumentsService.storageKey driverApplicationId u) := by
  refine ⟨u.keyUuid ++ DriverDocumentsService.extname u.file.originalname, ?_⟩
  unfold DriverDocumentsService.storageKey
  exact String.append_assoc

/-- What precedes the first delimiter can be read off a text. -/
private theorem eq_of_delimited {α : Type} {c : α} {l₁ l₂ r₁ r₂ : List α} (h₁ : c ∉ l₁)
    (h₂ : c ∉ l₂) (h : l₁ ++ c :: r₁ = l₂ ++ c :: r₂) : l₁ = l₂ ∧ r₁ = r₂ := by
  induction l₁ generalizing l₂ with
  | nil =>
      cases l₂ with
      | nil => exact ⟨rfl, (List.cons.inj h).2⟩
      | cons x l₂ => exact absurd ((List.cons.inj h).1 ▸ List.mem_cons_self) h₂
  | cons x l₁ ih =>
      cases l₂ with
      | nil => exact absurd ((List.cons.inj h).1 ▸ List.mem_cons_self) h₁
      | cons y l₂ =>
          obtain ⟨rfl, htail⟩ := List.cons.inj h
          obtain ⟨rfl, hrest⟩ := ih (fun hc => h₁ (List.mem_cons_of_mem _ hc))
            (fun hc => h₂ (List.mem_cons_of_mem _ hc)) htail
          exact ⟨rfl, hrest⟩

theorem DriverDocumentType.no_dash (t : DriverDocumentType) : '-' ∉ t.text.toList := by
  cases t <;> decide

theorem DriverDocumentType.text_injective : Function.Injective DriverDocumentType.text := by
  intro t t' h
  cases t <;> cases t' <;> first | rfl | exact absurd h (by decide)

/-- A key is for one application and one type. -/
theorem KeyFor.unique {id id' : Id} {t t' : DriverDocumentType} {key : String}
    (hid : '/' ∉ id.toList) (hid' : '/' ∉ id'.toList) (h : KeyFor id t key)
    (h' : KeyFor id' t' key) : id = id' ∧ t = t' := by
  obtain ⟨rest, rfl⟩ := h
  obtain ⟨rest', heq⟩ := h'
  have hchars := congrArg String.toList heq
  simp only [String.toList_append, List.append_assoc, List.append_cancel_left_eq] at hchars
  obtain ⟨hsame, htext⟩ := eq_of_delimited hid hid' hchars
  obtain ⟨htype, -⟩ := eq_of_delimited t.no_dash t'.no_dash htext
  exact ⟨String.toList_injective hsame,
    DriverDocumentType.text_injective (String.toList_injective htype)⟩

namespace Registry

/-- The step fields of an application, its mandatory documents and their files are the
same in both states. -/
structure SameRecord (id : Id) (s s' : Registry) : Prop where
  application : ∀ a ∈ s.driverApplications, a.id = id →
    ∃ a' ∈ s'.driverApplications, a'.id = id ∧ a'.steps = a.steps
  documents : ∀ d, d.driverApplicationId = id → d.type.mandatory = true →
    (d ∈ s'.driverDocuments ↔ d ∈ s.driverDocuments)
  files : ∀ d ∈ s.driverDocuments, d.driverApplicationId = id → d.type.mandatory = true →
    s'.files d.storageKey = s.files d.storageKey

/-- One step onwards, a closed application has the same record, and it is closed
unless it has been rejected. -/
structure KeepsRecords (s s' : Registry) : Prop where
  record : ∀ a ∈ s.driverApplications, a.status.closed = true → s.SameRecord a.id s'
  status : ∀ a ∈ s.driverApplications, a.status.closed = true →
    ∀ a' ∈ s'.driverApplications, a'.id = a.id →
      a'.status = a.status ∨
        a.status = .underReview ∧ (a'.status = .verified ∨ a'.status = .rejected)

/-- Every document has a key for its application and type. -/
structure Labelled (s : Registry) : Prop where
  applications : ∀ a ∈ s.driverApplications, '/' ∉ a.id.toList
  documents : ∀ d ∈ s.driverDocuments, '/' ∉ d.driverApplicationId.toList ∧
    KeyFor d.driverApplicationId d.type d.storageKey

/-- A document of the type may be uploaded for the application. -/
def AcceptsUpload (s : Registry) (id : Id) (type : DriverDocumentType) : Prop :=
  '/' ∉ id.toList ∧ (type.mandatory = true →
    ∀ a ∈ s.driverApplications, a.id = id → a.status.closed = false)

/-- With what the statements are issued, judged in the state they are executed in. -/
def Proper (s : Registry) : OnboardingStmt → Prop
  | .createApplication _ uuid => '/' ∉ uuid.toList
  | .updateApplication id write => ∀ a ∈ s.driverApplications, a.id = id →
      a.status.closed = true → a.status = .underReview ∧ ∃ reason now, write = .reject reason now
  | .upsertDocument id type document _ =>
      s.AcceptsUpload id type ∧ KeyFor id type document.storageKey
  | .saveFile key _ | .deleteFile key => ∃ id type, s.AcceptsUpload id type ∧ KeyFor id type key
  | _ => True

theorem SameRecord.refl (id : Id) (s : Registry) : s.SameRecord id s where
  application a ha hid := ⟨a, ha, hid, rfl⟩
  documents _ _ _ := Iff.rfl
  files _ _ _ _ := rfl

theorem SameRecord.trans {id : Id} {s₁ s₂ s₃ : Registry} (h₁ : s₁.SameRecord id s₂)
    (h₂ : s₂.SameRecord id s₃) : s₁.SameRecord id s₃ where
  application a ha hid := by
    obtain ⟨b, hb, hbid, hbsteps⟩ := h₁.application a ha hid
    obtain ⟨c, hc, hcid, hcsteps⟩ := h₂.application b hb hbid
    exact ⟨c, hc, hcid, hcsteps.trans hbsteps⟩
  documents d hid htype := (h₂.documents d hid htype).trans (h₁.documents d hid htype)
  files d hd hid htype := by
    have hd' := (h₁.documents d hid htype).mpr hd
    exact (h₂.files d hd' hid htype).trans (h₁.files d hd hid htype)

theorem KeepsRecords.refl (s : Registry) : s.KeepsRecords s where
  record a _ _ := .refl a.id s
  status a ha _ a' ha' hid := Or.inl (by rw [DriverApplication.eq_of_id ha' ha hid])

section Step
variable {cfg : Config} {s s' : Registry}

/-- As long as the applications stay as they are, it is a matter of the documents. -/
private theorem keepsRecords_of_documents (ha : s'.driverApplications = s.driverApplications)
    (hd : ∀ a ∈ s.driverApplications, a.status.closed = true → ∀ d, d.driverApplicationId = a.id →
      d.type.mandatory = true → (d ∈ s'.driverDocuments ↔ d ∈ s.driverDocuments) ∧
        (d ∈ s.driverDocuments → s'.files d.storageKey = s.files d.storageKey)) :
    s.KeepsRecords s' where
  record a ham hclosed :=
    { application b hb hid := ⟨b, ha ▸ hb, hid, rfl⟩
      documents d hid htype := (hd a ham hclosed d hid htype).1
      files d hdm hid htype := (hd a ham hclosed d hid htype).2 hdm }
  status a ham _ a' ha' hid := Or.inl (by rw [DriverApplication.eq_of_id (ha ▸ ha') ham hid])

/-- A file that an upload may write or remove is none of a closed application. -/
private theorem keepsRecords_of_files (hs : s.Labelled) {id : Id} {type : DriverDocumentType}
    {key : String} (hopen : s.AcceptsUpload id type) (hkey : KeyFor id type key)
    {content : Option String} :
    s.KeepsRecords { s with files := Function.update s.files key content } := by
  apply keepsRecords_of_documents
  · rfl
  · intro a ha hclosed d hid htype
    refine ⟨Iff.rfl, fun hd => Function.update_of_ne ?_ _ _⟩
    rintro rfl
    obtain ⟨hslash, hdkey⟩ := hs.documents d hd
    obtain ⟨rfl, rfl⟩ := hdkey.unique hslash hopen.1 hkey
    exact absurd hclosed (by simp [hopen.2 htype a ha hid.symm])

/-- Neither is the document itself. -/
private theorem keepsRecords_of_upsert {id uuid : Id} {type : DriverDocumentType}
    {document : StoredDocument} {d : DriverDocument} (hopen : s.AcceptsUpload id type)
    (h : s.upsertDocument id type document uuid = .ok (d, s')) : s.KeepsRecords s' := by
  obtain ⟨hs, hothers, -⟩ := upsertDocument_effect h
  rw [hs]
  apply keepsRecords_of_documents
  · rfl
  · intro a ha hclosed d hid htype
    refine ⟨hothers d fun hslot => ?_, fun _ => rfl⟩
    obtain ⟨rfl, rfl⟩ := Prod.mk.inj hslot
    exact absurd hclosed (by simp [hopen.2 htype a ha hid.symm])

/-- A write to an application that is closed keeps what has been filled in, if it is the
outcome of a review. -/
private theorem keepsRecords_of_rewrites {id : Id} {write : ApplicationWrite}
    (ha : s.driverApplications.Rewrites (write.applyTo id) s'.driverApplications)
    (hd : s'.driverDocuments = s.driverDocuments) (hf : s'.files = s.files)
    (hwrite : ∀ a ∈ s.driverApplications, a.id = id → a.status.closed = true →
      (write.apply a).steps = a.steps ∧ ((write.apply a).status = a.status ∨
        a.status = .underReview ∧
          ((write.apply a).status = .verified ∨ (write.apply a).status = .rejected))) :
    s.KeepsRecords s' where
  record a ham hclosed :=
    { application b hb hid := by
        refine ⟨_, ha.mem hb, ?_, ?_⟩
        · rw [(DriverApplication.identity_eq.mp (write.applyTo_identity id b)).1, hid]
        · unfold ApplicationWrite.applyTo
          split
          · next hbid =>
              obtain rfl := DriverApplication.eq_of_id hb ham hid
              exact (hwrite b hb hbid hclosed).1
          · rfl
      documents d _ _ := by rw [hd]
      files d _ _ _ := by rw [hf] }
  status a ham hclosed a' ha' hid := by
    obtain ⟨b, hb, rfl⟩ := (ha a').mp ha'
    rw [(DriverApplication.identity_eq.mp (write.applyTo_identity id b)).1] at hid
    obtain rfl := DriverApplication.eq_of_id hb ham hid
    unfold ApplicationWrite.applyTo
    split
    · next hbid => exact (hwrite b hb hbid hclosed).2
    · exact Or.inl rfl

private theorem keepsRecords_of_create {userId uuid : Id}
    (ha : s.driverApplications.Extends { id := uuid, userId } s'.driverApplications)
    (hd : s'.driverDocuments = s.driverDocuments) (hf : s'.files = s.files) :
    s.KeepsRecords s' where
  record a ham hclosed :=
    { application b hb hid := ⟨b, ha.mem_old hb, hid, rfl⟩
      documents d _ _ := by rw [hd]
      files d _ _ _ := by rw [hf] }
  status a ham _ a' ha' hid :=
    Or.inl (by rw [DriverApplication.eq_of_id ha' (ha.mem_old ham) hid])

theorem keepsRecords_of_exec (hs : s.Labelled) {o : OnboardingStmt} {b : o.Res}
    (ho : s.Proper o) (h : exec cfg o s = .ok (b, s')) : s.KeepsRecords s' := by
  cases o with
  | createApplication userId uuid =>
      have hf := exec_files h nofun nofun
      cases exec_wrote h with
      | nothing hreads => exact nomatch hreads
      | createApplication hu ha hd hp fresh => exact keepsRecords_of_create ha hd hf
  | updateApplication id write =>
      have hf := exec_files h nofun nofun
      cases exec_wrote h with
      | nothing hreads => exact nomatch hreads
      | updateApplication hu ha hd hp =>
          apply keepsRecords_of_rewrites ha hd hf
          intro a ham hid hclosed
          obtain ⟨hreview, reason, now, rfl⟩ := ho a ham hid hclosed
          exact ⟨rfl, Or.inr ⟨hreview, Or.inr rfl⟩⟩
  | approveBatch id userId uuid now =>
      have hf := exec_files h nofun nofun
      cases exec_wrote h with
      | nothing hreads => exact nomatch hreads
      | approveBatch hu ha hd hp =>
          apply keepsRecords_of_rewrites ha hd hf
          intro a ham hid hclosed
          refine ⟨rfl, ?_⟩
          cases hstatus : a.status with
          | underReview => exact Or.inr ⟨rfl, Or.inl rfl⟩
          | verified => exact Or.inl rfl
          | _ => simp [hstatus, DriverApplicationStatus.closed] at hclosed
  | upsertDocument id type document uuid => exact keepsRecords_of_upsert ho.1 (thrown_ok h)
  | saveFile key buffer =>
      obtain ⟨id, type, hopen, hkey⟩ := ho
      cases h
      exact keepsRecords_of_files hs hopen hkey
  | deleteFile key =>
      obtain ⟨id, type, hopen, hkey⟩ := ho
      cases h
      exact keepsRecords_of_files hs hopen hkey
  | setActiveProfile userId profile =>
      have hf := exec_files h nofun nofun
      cases exec_wrote h with
      | nothing hreads => exact nomatch hreads
      | setActiveProfile hu ha hd hp =>
          apply keepsRecords_of_documents ha
          intro a _ _ d _ _
          rw [hd, hf]
          exact ⟨Iff.rfl, fun _ => rfl⟩
  | ride o =>
      have hf := exec_files h nofun nofun
      cases exec_wrote h with
      | nothing hreads => exact nomatch hreads
      | ride hu ha hd hr =>
          apply keepsRecords_of_documents ha
          intro a _ _ d _ _
          rw [hd, hf]
          exact ⟨Iff.rfl, fun _ => rfl⟩
  | _ =>
      cases h
      exact .refl s

theorem Labelled.exec (hs : s.Labelled) {o : OnboardingStmt} {b : o.Res}
    (ho : s.Proper o) (h : exec cfg o s = .ok (b, s')) : s'.Labelled := by
  cases exec_wrote h with
  | nothing hreads hu ha hd hp =>
      constructor
      · rw [ha]
        exact hs.applications
      · rw [hd]
        exact hs.documents
  | createApplication hu ha hd hp fresh =>
      constructor
      · intro a ham
        rcases (ha a).mp ham with hold | rfl
        · exact hs.applications a hold
        · exact ho
      · rw [hd]
        exact hs.documents
  | @updateApplication id write _ _ hu ha hd hp =>
      constructor
      · intro a ham
        obtain ⟨a, hold, rfl⟩ := (ha a).mp ham
        rw [(DriverApplication.identity_eq.mp (write.applyTo_identity id a)).1]
        exact hs.applications a hold
      · rw [hd]
        exact hs.documents
  | @approveBatch id userId uuid now _ _ hu ha hd hp =>
      constructor
      · intro a ham
        obtain ⟨a, hold, rfl⟩ := (ha a).mp ham
        rw [(DriverApplication.identity_eq.mp
          ((ApplicationWrite.verify now).applyTo_identity id a)).1]
        exact hs.applications a hold
      · rw [hd]
        exact hs.documents
  | @upsertDocument id type document uuid _ _ hu ha hd hp =>
      obtain ⟨-, hothers, hnew⟩ := upsertDocument_effect (thrown_ok h)
      constructor
      · rw [ha]
        exact hs.applications
      · intro d hdm
        by_cases hslot : d.slot = (id, type)
        · have hkey : d.storageKey = document.storageKey :=
            congrArg StoredDocument.storageKey (hnew d hdm hslot)
          obtain ⟨rfl, rfl⟩ := Prod.mk.inj hslot
          rw [hkey]
          exact ⟨ho.1.1, ho.2⟩
        · exact hs.documents d ((hothers d hslot).mp hdm)
  | setActiveProfile hu ha hd hp =>
      constructor
      · rw [ha]
        exact hs.applications
      · rw [hd]
        exact hs.documents
  | ride hu ha hd hr =>
      constructor
      · rw [ha]
        exact hs.applications
      · rw [hd]
        exact hs.documents

end Step

theorem AcceptsUpload.congr {s s' : Registry} {id : Id} {type : DriverDocumentType}
    (h : s.AcceptsUpload id type) (ha : s'.driverApplications = s.driverApplications) :
    s'.AcceptsUpload id type := by
  unfold AcceptsUpload
  rw [ha]
  exact h

end Registry

/-- Every step so far has kept the records of the applications that were closed. -/
structure RecordsKept (w : OnboardingWorld) : Prop where
  labelled : w.shared.Labelled
  steps : w.StepsBy Registry.KeepsRecords

/-- So it has, and documents of the types in `P` may be uploaded for the application. -/
structure Uploading (id : Id) (P : DriverDocumentType → Prop) (w : OnboardingWorld) : Prop where
  kept : RecordsKept w
  accepts : ∀ t, P t → w.shared.AcceptsUpload id t

section Calls
variable {cfg : Config} {n : Nat} {i : OnboardingInvocation} {w : OnboardingWorld}
variable {o : OnboardingStmt} {b : o.Res} {s : Registry} {id : Id} {P : DriverDocumentType → Prop}

variable (cfg) in
theorem RecordsKept.commit (h : RecordsKept w) (ho : w.shared.Proper o)
    (hx : Registry.exec cfg o w.shared = .ok (b, s)) : RecordsKept (w.commit n i o s) where
  labelled := h.labelled.exec ho hx
  steps := h.steps.commit (Registry.keepsRecords_of_exec h.labelled ho hx)

variable (cfg) in
theorem Uploading.commit (h : Uploading id P w) (ho : w.shared.Proper o)
    (hx : Registry.exec cfg o w.shared = .ok (b, s))
    (ha : s.driverApplications = w.shared.driverApplications) :
    Uploading id P (w.commit n i o s) where
  kept := h.kept.commit cfg ho hx
  accepts t ht := (h.accepts t ht).congr ha

theorem upload_keeps (h : Uploading id P w) {u : Upload} (hu : P u.type) :
    (DriverDocumentsService.upload id u).Ends (onboardingSystem cfg) n i
      (fun _ w' => Uploading id P w') w := by
  have hkey := storageKey_keyFor id u
  apply Call.Ends.ensure_bind _ fun _ => h
  intro _
  apply Call.Ends.perform_bind (fun _ => h) _ fun _ _ => h
  intro existing s₁ hfind
  cases hfind
  -- The document that is replaced has a key of its own kind.
  have hprevious : ∀ d, w.shared.driverDocuments.find?
      (fun d => d.driverApplicationId = id ∧ d.type = u.type) = some d →
        KeyFor id u.type d.storageKey := by
    intro d hd
    obtain ⟨hdm, hslot⟩ := Table.find?_some hd
    obtain ⟨rfl, htype⟩ := of_decide_eq_true hslot
    exact htype ▸ (h.kept.labelled.documents d hdm).2
  generalize w.shared.driverDocuments.find?
    (fun d => d.driverApplicationId = id ∧ d.type = u.type) = existing at hprevious
  have h := h.commit cfg (n := n) (i := i) (o := .findDocument id u.type) trivial rfl rfl
  apply Call.Ends.perform_bind (fun _ => h) _ fun _ _ => h
  intro _ s₂ hsave
  cases hsave
  have h := h.commit cfg (n := n) (i := i)
    (o := .saveFile (DriverDocumentsService.storageKey id u) u.file.buffer)
    ⟨id, u.type, h.accepts _ hu, hkey⟩ rfl rfl
  apply Call.Ends.perform_bind (fun _ => h) _ fun _ _ => h
  intro document s₃ hupsert
  have ha := congrArg Registry.driverApplications
    (Registry.upsertDocument_effect (Registry.thrown_ok hupsert)).1
  have h := h.commit cfg (n := n) (i := i) (o := .upsertDocument id u.type _ u.rowUuid)
    ⟨h.accepts _ hu, hkey⟩ hupsert ha
  cases existing with
  | none => exact h
  | some previous =>
      dsimp only
      split
      · apply Call.Ends.bind
        apply Call.Ends.recover
        apply Call.Ends.perform (fun _ => h) _ fun _ _ => h
        intro _ s₄ hdelete
        cases hdelete
        exact h.commit cfg (o := .deleteFile previous.storageKey)
          ⟨id, u.type, h.accepts _ hu, hprevious previous rfl⟩ rfl rfl
      · exact h

/-- An application that is not closed accepts everything. -/
theorem RecordsKept.uploading (h : RecordsKept w) {a : DriverApplication}
    (ha : a ∈ w.shared.driverApplications) (hopen : a.status.closed = false) :
    Uploading a.id (fun _ => True) w where
  kept := h
  accepts _ _ := ⟨h.labelled.applications a ha,
    fun _ b hb hid => by rwa [DriverApplication.eq_of_id hb ha hid]⟩

theorem Uploading.proper_update (h : Uploading id (fun _ => True) w) (write : ApplicationWrite) :
    w.shared.Proper (.updateApplication id write) := by
  intro a ha hid hclosed
  have hopen := (h.accepts .driversLicense trivial).2 (by decide) a ha hid
  exact absurd hclosed (by simp [hopen])

theorem Uploading.updateApplication_keeps (h : Uploading id (fun _ => True) w)
    (write : ApplicationWrite) : (execute (.updateApplication id write)).Ends
      (onboardingSystem cfg) n i (fun _ w' => RecordsKept w') w := by
  apply Call.Ends.perform (fun _ => h.kept) _ fun _ _ => h.kept
  intro _ s hx
  exact h.kept.commit cfg (h.proper_update write) hx

theorem findByUserId_finds (h : RecordsKept w) (userId : Id) :
    (DriverApplicationService.findByUserId userId).Ends (onboardingSystem cfg) n i
      (fun r w' => match r with
        | .ok a => RecordsKept w' ∧ a ∈ w'.shared.driverApplications
        | .error _ => RecordsKept w') w := by
  apply Call.Ends.perform_bind (fun _ => h) _ fun _ _ => h
  intro found s hfind
  cases hfind
  have h := h.commit cfg (n := n) (i := i) (o := .findApplicationByUser userId)
    trivial rfl
  cases hfound : w.shared.driverApplications.find? fun a => a.userId = userId with
  | none => exact h
  | some a => exact ⟨h, (Table.find?_some hfound).1⟩

/-- A step goes on only with an application that it has found open. -/
theorem loadEditable_bind_keeps {α : Type} (h : RecordsKept w) (userId : Id)
    {f : DriverApplication → OnboardingCall α}
    (hf : ∀ a w', Uploading a.id (fun _ => True) w' →
      (f a).Ends (onboardingSystem cfg) n i (fun _ w' => RecordsKept w') w') :
    (DriverApplicationService.loadEditable userId >>= f).Ends (onboardingSystem cfg) n i
      (fun _ w' => RecordsKept w') w := by
  apply Call.Ends.bind
  apply Call.Ends.bind
  apply (findByUserId_finds h userId).mono
  intro r w' hr
  cases r with
  | error e => exact hr
  | ok a =>
      obtain ⟨h, ha⟩ := hr
      apply Call.Ends.ensure_bind _ fun _ => h
      rintro ⟨hreview, hverified⟩
      apply Call.Ends.ensure_bind _ fun _ => h
      intro _
      apply hf a w' (h.uploading ha _)
      cases hstatus : a.status with
      | underReview => exact absurd hstatus hreview
      | verified => exact absurd hstatus hverified
      | _ => rfl

theorem submitLicense_keeps (h : RecordsKept w) (userId : Id) (dto : SubmitLicenseDto)
    (licenseImage : UploadableFile) (keyUuid rowUuid : Id) :
    (DriverApplicationService.submitLicense userId dto licenseImage keyUuid rowUuid).Ends
      (onboardingSystem cfg) n i (fun _ w' => RecordsKept w') w := by
  apply loadEditable_bind_keeps h
  intro a w₁ h
  apply Call.Ends.bind
  apply (upload_keeps h trivial).mono
  intro r w₂ h
  cases r with
  | error e => exact h.kept
  | ok _ => exact h.updateApplication_keeps _

theorem assertPlateNumberAvailable_keeps (h : Uploading id P w) (plateNumber : String) :
    (DriverApplicationService.assertPlateNumberAvailable plateNumber id).Ends
      (onboardingSystem cfg) n i (fun _ w' => Uploading id P w') w := by
  apply Call.Ends.perform_bind (fun _ => h) _ fun _ _ => h
  intro found s hfind
  cases hfind
  have h := h.commit cfg (n := n) (i := i) (o := .findApplicationByPlate plateNumber)
    trivial rfl rfl
  cases w.shared.driverApplications.find? fun a => a.plateNumber = some plateNumber with
  | none => exact h
  | some existing =>
      dsimp only [Call.ensure]
      split
      · exact h
      · exact h

theorem submitVehicle_keeps (h : RecordsKept w) (userId : Id) (dto : SubmitVehicleDto)
    (files : List Upload) :
    (DriverApplicationService.submitVehicle userId dto files).Ends
      (onboardingSystem cfg) n i (fun _ w' => RecordsKept w') w := by
  apply loadEditable_bind_keeps h
  intro a w₁ h
  apply Call.Ends.bind
  apply (assertPlateNumberAvailable_keeps h dto.plateNumber).mono
  intro r w₂ h
  cases r with
  | error e => exact h.kept
  | ok _ =>
      apply Call.Ends.bind
      apply (Call.Ends.forEach (K := Uploading a.id fun _ => True) _ h).mono
      · intro r w₃ h
        cases r with
        | error e => exact h.kept
        | ok _ =>
            apply Call.Ends.bind
            apply Call.Ends.perform_bind (fun _ => h.kept) _ fun _ _ => h.kept
            intro documents s hdocuments
            cases hdocuments
            have h := h.commit cfg (n := n) (i := i) (o := .findDocuments a.id)
              trivial rfl rfl
            apply Call.Ends.ensure_bind _ fun _ => h.kept
            intro _
            apply Call.Ends.perform_bind (fun _ => h.kept) _ fun _ _ => h.kept
            intro now s hnow
            cases hnow
            have h := h.commit cfg (n := n) (i := i) (o := .ride .now) trivial rfl rfl
            exact h.updateApplication_keeps _
      · intro u _ w h
        exact Call.Ends.void (upload_keeps h trivial)

theorem uploadOptionalDocument_keeps (h : RecordsKept w) (userId : Id) (u : Upload) :
    (DriverApplicationService.uploadOptionalDocument userId u).Ends
      (onboardingSystem cfg) n i (fun _ w' => RecordsKept w') w := by
  apply Call.Ends.ensure_bind _ fun _ => h
  intro hoptional
  apply Call.Ends.bind
  apply (findByUserId_finds h userId).mono
  intro r w' hr
  cases r with
  | error e => exact hr
  | ok a =>
      obtain ⟨h, ha⟩ := hr
      have hnot : ∀ t ∈ DriverApplicationService.optionalDocumentTypes, t.mandatory = false := by
        decide
      have h : Uploading a.id (fun t => t ∈ DriverApplicationService.optionalDocumentTypes) w' :=
        ⟨h, fun t ht => ⟨h.labelled.applications a ha,
          fun hreq => Bool.noConfusion (hreq.symm.trans (hnot t ht))⟩⟩
      apply (upload_keeps h hoptional).mono
      exact fun _ _ h => h.kept

theorem start_keeps (h : RecordsKept w) (userId : Id) {uuid : Id} (huuid : '/' ∉ uuid.toList) :
    (DriverApplicationService.start userId uuid).Ends (onboardingSystem cfg) n i
      (fun _ w' => RecordsKept w') w := by
  apply Call.Ends.perform_bind (fun _ => h) _ fun _ _ => h
  intro found s hfind
  cases hfind
  have h' := h.commit cfg (n := n) (i := i) (o := .findApplicationByUser userId)
    trivial rfl
  cases hfound : w.shared.driverApplications.find? fun a => a.userId = userId with
  | none =>
      apply Call.Ends.perform (fun _ => h') _ fun _ _ => h'
      intro _ s hx
      exact h'.commit cfg huuid hx
  | some a =>
      have ha : a ∈ w.shared.driverApplications := (Table.find?_some hfound).1
      apply Call.Ends.ensure_bind _ fun _ => h'
      rintro ⟨hreview, hverified⟩
      split
      · next hrejected =>
          apply Uploading.updateApplication_keeps
          exact h'.uploading ha (by rw [hrejected]; rfl)
      · exact h'

theorem review_keeps (h : RecordsKept w) (applicationId : Id) (decision : DriverApplicationStatus)
    (rejectionReason : Option String) (uuid : Id) :
    (DriverApplicationService.review applicationId decision rejectionReason uuid).Ends
      (onboardingSystem cfg) n i (fun _ w' => RecordsKept w') w := by
  apply Call.Ends.bind
  apply Call.Ends.perform_bind (fun _ => h) _ fun _ _ => h
  intro found s hfind
  cases hfind
  have h := h.commit cfg (n := n) (i := i) (o := .findApplication applicationId)
    trivial rfl
  cases hfound : w.shared.driverApplications.find? fun a => a.id = applicationId with
  | none => exact h
  | some a =>
      have ha : a ∈ w.shared.driverApplications := (Table.find?_some hfound).1
      apply Call.Ends.ensure_bind _ fun _ => h
      intro hreview
      apply Call.Ends.perform_bind (fun _ => h) _ fun _ _ => h
      intro now s hnow
      cases hnow
      have h := h.commit cfg (n := n) (i := i) (o := .ride .now) trivial rfl
      split
      · apply Call.Ends.perform (fun _ => h) _ fun _ _ => h
        intro _ s hx
        refine h.commit cfg
          (o := .updateApplication a.id (.reject rejectionReason _)) ?_ hx
        intro b hb hid _
        rw [DriverApplication.eq_of_id hb ha hid]
        exact ⟨hreview, rejectionReason, _, rfl⟩
      · apply Call.Ends.perform (fun _ => h) _ fun _ _ => h
        intro _ s hx
        exact h.commit cfg trivial hx

/-- Whatever else is executed is no concern of an application. -/
theorem keeps_of_uses {α : Type} {c : OnboardingCall α}
    (hc : c.Uses fun o => ∀ s : Registry, s.Proper o) (h : RecordsKept w) :
    c.Ends (onboardingSystem cfg) n i (fun _ w' => RecordsKept w') w := by
  apply Call.Ends.of_uses _ hc h
  intro w' o b s ho h hx
  exact h.commit cfg (ho w'.shared) hx

theorem code_keeps (h : RecordsKept w)
    (hi : ∀ userId uuid, i = .start userId uuid → '/' ∉ uuid.toList) :
    (i.code cfg).Ends (onboardingSystem cfg) n i (fun _ w' => RecordsKept w') w := by
  cases i with
  | start userId uuid => exact .void (start_keeps h userId (hi userId uuid rfl))
  | submitPersonalInfo userId dto =>
      apply Call.Ends.void
      apply loadEditable_bind_keeps h
      exact fun a w' h => h.updateApplication_keeps _
  | submitLicense userId dto licenseImage keyUuid rowUuid =>
      exact .void (submitLicense_keeps h userId dto licenseImage keyUuid rowUuid)
  | submitVehicle userId dto files => exact .void (submitVehicle_keeps h userId dto files)
  | uploadOptionalDocument userId u => exact .void (uploadOptionalDocument_keeps h userId u)
  | review applicationId decision rejectionReason uuid =>
      exact .void (review_keeps h applicationId decision rejectionReason uuid)
  | setActiveProfile userId profile =>
      apply Call.Ends.void
      apply keeps_of_uses _ h
      apply setActiveProfile_uses
      · exact fun _ _ => trivial
      · exact fun _ _ _ => trivial
      · exact fun userId => (Call.Uses.any _).mono fun _ _ _ => trivial
  | elapse duration => exact keeps_of_uses (.perform fun _ => trivial) h

end Calls

theorem recordsKept_init (fresh : FreshUsers) : RecordsKept (onboardingPool fresh).world where
  labelled := ⟨fun _ ha => absurd ha (Table.not_mem_empty _),
    fun _ hd => absurd hd (Table.not_mem_empty _)⟩
  steps := World.stepsBy_init _ _

/-- Between two moments at which, and between which, an application is closed, its record
stays the same. -/
theorem RecordsKept.between {w : OnboardingWorld} (h : RecordsKept w) {k m : Nat} (hkm : k ≤ m)
    {a : DriverApplication} (ha : a ∈ (w.moment k).driverApplications)
    (hclosed : a.status.closed = true)
    (hkept : a.status = .verified ∨ ∀ l, k ≤ l → l ≤ m → ∀ b ∈ (w.moment l).driverApplications,
      b.id = a.id → b.status ≠ .rejected) :
    (w.moment k).SameRecord a.id (w.moment m) ∧ ∃ b ∈ (w.moment m).driverApplications,
      b.id = a.id ∧ b.status.closed = true ∧ (a.status = .verified → b.status = .verified) := by
  induction m, hkm using Nat.le_induction with
  | base => exact ⟨.refl _ _, a, ha, rfl, hclosed, id⟩
  | succ m hkm ih =>
      have hearlier : a.status = .verified ∨ ∀ l, k ≤ l → l ≤ m →
          ∀ b ∈ (w.moment l).driverApplications, b.id = a.id → b.status ≠ .rejected :=
        hkept.imp_right fun h l hl hlm => h l hl (Nat.le_succ_of_le hlm)
      obtain ⟨hsame, b, hb, hid, hbclosed, hverified⟩ := ih hearlier
      have hstep := h.steps.at Registry.KeepsRecords.refl m
      have hrecord := hid ▸ hstep.record b hb hbclosed
      obtain ⟨c, hc, hcid, -⟩ := hrecord.application b hb hid
      refine ⟨hsame.trans hrecord, c, hc, hcid, ?_⟩
      rcases hstep.status b hb hbclosed c hc (hcid.trans hid.symm) with heq |
        ⟨hreview, heq | heq⟩
      · rw [heq]
        exact ⟨hbclosed, hverified⟩
      · rw [heq]
        exact ⟨rfl, fun _ => rfl⟩
      · rcases hkept with hdone | hnever
        · exact absurd ((hverified hdone).symm.trans hreview) (by decide)
        · exact absurd heq (hnever (m + 1) (Nat.le_succ_of_le hkm) (Nat.le_refl _) c hc hcid)

/-- In every run of whole calls, as long as an application that is under review has not
been rejected, and for ever once it is verified, its step fields, its required documents
and the files these point to do not change. -/
theorem record_unchanged (cfg : Config) (fresh : FreshUsers)
    (qs : List (OnboardingInvocation × List Bool))
    (hids : ∀ q ∈ qs, ∀ userId uuid, q.1 = .start userId uuid → '/' ∉ uuid.toList) :
    let w := ((onboardingPool fresh).serveAll (onboardingSystem cfg) qs).world
    ∀ k m, k ≤ m → ∀ a ∈ (w.moment k).driverApplications,
      a.status = .verified ∨
          a.status = .underReview ∧ (∀ l, k ≤ l → l ≤ m →
            ∀ b ∈ (w.moment l).driverApplications, b.id = a.id → b.status ≠ .rejected) →
        (w.moment k).SameRecord a.id (w.moment m) := by
  intro w k m hkm a ha hstatus
  have hw : RecordsKept w := by
    apply Pool.serveAll_invariant_of (K := RecordsKept) _ (recordsKept_init fresh)
    exact fun q hq w n h => code_keeps h (hids q hq)
  rcases hstatus with hverified | ⟨hreview, hnever⟩
  · exact (hw.between hkm ha (by rw [hverified]; rfl) (Or.inl hverified)).1
  · exact (hw.between hkm ha (by rw [hreview]; rfl) (Or.inr hnever)).1

/-- An application is submitted. Insurance is added, a second licence step is refused, and
the application is approved. -/
def lateUploads : List (OnboardingInvocation × List Bool) :=
  let image : UploadableFile := ⟨"bytes", "image/png", "scan.png", 5⟩
  [(.start "applicant" "application", []),
    (.submitPersonalInfo "applicant" ⟨"Ada", 0, "1 Main Street"⟩, []),
    (.submitLicense "applicant" ⟨"L-1", 1000⟩ image "key-1" "document-1", []),
    (.submitVehicle "applicant" ⟨"Make", "Model", 2020, "blue", "PLATE", 1000⟩
      [⟨.vehicleRegistration, image, "key-2", "document-2"⟩,
        ⟨.vehiclePhoto, image, "key-3", "document-3"⟩], []),
    (.uploadOptionalDocument "applicant" ⟨.proofOfInsurance, image, "key-4", "document-4"⟩, []),
    (.submitLicense "applicant" ⟨"L-2", 2000⟩ image "key-5" "document-5", []),
    (.review "application" .verified none "profile", [])]

theorem record_unchanged_lateUploads :
    ∃ a ∈ (((onboardingPool oneApplicant).serveAll (onboardingSystem .default)
        lateUploads).world.moment 20).driverApplications, a.status = .underReview ∧
      (((onboardingPool oneApplicant).serveAll (onboardingSystem .default)
        lateUploads).world.moment 20).SameRecord a.id
          (((onboardingPool oneApplicant).serveAll (onboardingSystem .default)
            lateUploads).world.moment 28) := by
  have hids : ∀ q ∈ lateUploads, ∀ userId uuid, q.1 = .start userId uuid → '/' ∉ uuid.toList := by
    intro q hq userId uuid h
    simp only [lateUploads, List.mem_cons, List.not_mem_nil, or_false] at hq
    rcases hq with rfl | rfl | rfl | rfl | rfl | rfl | rfl <;> cases h
    decide
  have h := record_unchanged .default oneApplicant lateUploads hids
  generalize hw : ((onboardingPool oneApplicant).serveAll (onboardingSystem .default)
    lateUploads).world = w at h ⊢
  obtain ⟨a, ha, hstatus⟩ :
      ∃ a ∈ (w.moment 20).driverApplications, a.status = .underReview := by
    rw [← hw]
    decide +kernel
  have hnever : ∀ l < 29, ∀ b ∈ (w.moment l).driverApplications, b.status ≠ .rejected := by
    rw [← hw]
    decide +kernel
  refine ⟨a, ha, hstatus, h 20 28 (by decide) a ha (Or.inr ⟨hstatus, fun l _ hl b hb _ => ?_⟩)⟩
  exact hnever l (Nat.lt_succ_of_le hl) b hb

end Reedr
