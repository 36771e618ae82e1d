import Reedr.Onboarding.Registry

/-!
# What a successful onboarding statement does to the tables
-/

namespace Reedr
open Relational Interleaving

/-- The driver profiles, which the ride tables hold. -/
abbrev Registry.driverProfiles (s : Registry) : Table DriverProfile :=
  s.ride.tables.driverProfiles

/-- The application and type a document row is for. -/
def DriverDocument.slot (d : DriverDocument) : Id × DriverDocumentType :=
  (d.driverApplicationId, d.type)

/-- The columns of a document row that an upload writes. -/
def DriverDocument.stored (d : DriverDocument) : StoredDocument where
  storageKey := d.storageKey
  originalFilename := d.originalFilename
  mimeType := d.mimeType
  sizeBytes := d.sizeBytes

/-- The write as an update of the application with the given id. -/
def ApplicationWrite.applyTo (id : Id) (write : ApplicationWrite) (a : DriverApplication) :
    DriverApplication :=
  if a.id = id then write.apply a else a

/-- Statements that write no row of their own. -/
def OnboardingStmt.readsRows : OnboardingStmt → Bool
  | .findApplicationByUser _ | .findApplication _ | .findApplicationByPlate _
  | .findDocument _ _ | .findDocuments _ | .saveFile _ _ | .deleteFile _
  | .findDriverProfileByUser _ => true
  | _ => false

namespace Registry

/-- What an executed statement did to the tables, by kind of statement. -/
inductive Wrote : OnboardingStmt → Registry → Registry → Prop where
  | nothing {o s s'} (ho : o.readsRows = true) (hu : s'.users = s.users)
      (ha : s'.driverApplications = s.driverApplications)
      (hd : s'.driverDocuments = s.driverDocuments) (hp : s'.driverProfiles = s.driverProfiles) :
      Wrote o s s'
  | createApplication {userId uuid s s'} (hu : s'.users = s.users)
      (ha : s.driverApplications.Extends { id := uuid, userId } s'.driverApplications)
      (hd : s'.driverDocuments = s.driverDocuments) (hp : s'.driverProfiles = s.driverProfiles)
      (fresh : ∀ a ∈ s.driverApplications, a.id ≠ uuid) :
      Wrote (.createApplication userId uuid) s s'
  | updateApplication {id write s s'} (hu : s'.users = s.users)
      (ha : s.driverApplications.Rewrites (write.applyTo id) s'.driverApplications)
      (hd : s'.driverDocuments = s.driverDocuments) (hp : s'.driverProfiles = s.driverProfiles) :
      Wrote (.updateApplication id write) s s'
  | approveBatch {id userId uuid now s s'} (hu : s'.users = s.users)
      (ha : s.driverApplications.Rewrites ((ApplicationWrite.verify now).applyTo id)
        s'.driverApplications)
      (hd : s'.driverDocuments = s.driverDocuments)
      (hp : s.driverProfiles.Extends { id := uuid, userId, driverApplicationId := id }
        s'.driverProfiles) :
      Wrote (.approveBatch id userId uuid now) s s'
  | upsertDocument {driverApplicationId type document uuid s s'} (hu : s'.users = s.users)
      (ha : s'.driverApplications = s.driverApplications)
      (hd : s.driverDocuments.Persists DriverDocument.slot s'.driverDocuments)
      (hp : s'.driverProfiles = s.driverProfiles) :
      Wrote (.upsertDocument driverApplicationId type document uuid) s s'
  | setActiveProfile {userId activeProfile s s'}
      (hu : s.users.Rewrites (fun u => if u.id = userId then { u with activeProfile } else u)
        s'.users)
      (ha : s'.driverApplications = s.driverApplications)
      (hd : s'.driverDocuments = s.driverDocuments) (hp : s'.driverProfiles = s.driverProfiles) :
      Wrote (.setActiveProfile userId activeProfile) s s'
  | ride {o s s'} (hu : s'.users = s.users)
      (ha : s'.driverApplications = s.driverApplications)
      (hd : s'.driverDocuments = s.driverDocuments)
      (h : Backend.Wrote o s.ride.tables s'.ride.tables) : Wrote (.ride o) s s'

variable {s s' : Registry}

private theorem createApplication_wrote {userId uuid : Id} {a : DriverApplication}
    (h : s.createApplication { id := uuid, userId } = .ok (a, s')) :
    Wrote (.createApplication userId uuid) s s' := by
  simp only [createApplication, bind_eq_ok, pure, Except.pure, Except.ok.injEq,
    Prod.mk.injEq] at h
  obtain ⟨applications, hc, -, rfl⟩ := h
  refine .createApplication rfl (Table.Extends.of_create hc) rfl rfl fun x hx hid => ?_
  exact Table.not_clash_of_create hc x hx
    ⟨DriverApplicationKey.id x.id, by simp [Keyed.keys], by simp [Keyed.keys, hid]⟩

private theorem updateApplication_wrote {id : Id} {write : ApplicationWrite}
    {a : DriverApplication} (h : s.updateApplication id write = .ok (a, s')) :
    Wrote (.updateApplication id write) s s' := by
  simp only [updateApplication, bind_eq_ok, pure, Except.pure, Except.ok.injEq,
    Prod.mk.injEq] at h
  obtain ⟨⟨a', applications⟩, ha, -, rfl⟩ := h
  obtain ⟨-, -, -, -, -, hu⟩ := Table.update_ok ha
  refine .updateApplication rfl ((Table.Rewrites.of_updateMany hu).congr fun x => ?_) rfl rfl
  simp [ApplicationWrite.applyTo]

private theorem approveBatch_wrote {id userId uuid : Id} {now : Millis} {a : DriverApplication}
    (h : s.approveBatch id userId uuid now = .ok (a, s')) :
    Wrote (.approveBatch id userId uuid now) s s' := by
  simp only [approveBatch, bind_eq_ok, pure, Except.pure, Except.ok.injEq, Prod.mk.injEq] at h
  obtain ⟨⟨a', applications⟩, ha, ⟨u, tables⟩, hp, -, rfl⟩ := h
  obtain ⟨-, -, -, -, -, hu⟩ := Table.update_ok ha
  refine .approveBatch rfl ((Table.Rewrites.of_updateMany hu).congr fun x => ?_) rfl
    (RideTables.createDriverProfile_effect hp).profiles
  simp [ApplicationWrite.applyTo]

private theorem upsertDocument_wrote {driverApplicationId : Id} {type : DriverDocumentType}
    {document : StoredDocument} {uuid : Id} {d : DriverDocument}
    (h : s.upsertDocument driverApplicationId type document uuid = .ok (d, s')) :
    Wrote (.upsertDocument driverApplicationId type document uuid) s s' := by
  simp only [upsertDocument, bind_eq_ok, pure, Except.pure, Except.ok.injEq, Prod.mk.injEq] at h
  obtain ⟨⟨d', documents⟩, hd, -, rfl⟩ := h
  refine .upsertDocument rfl rfl ?_ rfl
  rcases Table.upsert_ok hd with ⟨-, -, -, -, hu⟩ | ⟨-, -, hc⟩
  · exact (Table.Rewrites.of_updateMany hu).persists fun x => by split <;> rfl
  · exact (Table.Extends.of_create hc).persists

/-- An upsert stores the document in its slot and touches nothing else. -/
theorem upsertDocument_effect {driverApplicationId : Id} {type : DriverDocumentType}
    {document : StoredDocument} {uuid : Id} {d : DriverDocument}
    (h : s.upsertDocument driverApplicationId type document uuid = .ok (d, s')) :
    s' = { s with driverDocuments := s'.driverDocuments } ∧
      s.driverDocuments.SameBut (fun x => x.slot = (driverApplicationId, type))
        s'.driverDocuments ∧
      ∀ x ∈ s'.driverDocuments, x.slot = (driverApplicationId, type) → x.stored = document := by
  simp only [upsertDocument, bind_eq_ok, pure, Except.pure, Except.ok.injEq, Prod.mk.injEq] at h
  obtain ⟨⟨d', documents⟩, hd, -, rfl⟩ := h
  refine ⟨rfl, ?_⟩
  have hslot (x : DriverDocument) :
      (x.driverApplicationId = driverApplicationId ∧ x.type = type) ↔
        x.slot = (driverApplicationId, type) := by
    rw [DriverDocument.slot, Prod.mk.injEq]
  rcases Table.upsert_ok hd with ⟨-, -, -, -, hu⟩ | ⟨hnone, -, hc⟩
  · have hrewrites := Table.Rewrites.of_updateMany hu
    constructor
    · apply Table.SameBut.of_rewrites hrewrites
      · intro r _ hr
        split <;> exact hr
      · intro r _ hr
        exact if_neg fun hp => hr ((hslot r).mp (of_decide_eq_true hp))
    · intro x hx hxs
      obtain ⟨r, hr, rfl⟩ := (hrewrites x).mp hx
      dsimp only at hxs ⊢
      by_cases hp : r.slot = (driverApplicationId, type)
      · rw [if_pos (decide_eq_true ((hslot r).mpr hp))]
        rfl
      · rw [if_neg fun hr => hp ((hslot r).mp (of_decide_eq_true hr))] at hxs
        exact absurd hxs hp
  · have hextends := Table.Extends.of_create hc
    constructor
    · exact Table.SameBut.of_extends hextends rfl
    · intro x hx hxs
      rcases (hextends x).mp hx with hx | rfl
      · exact absurd ((hslot x).mpr hxs) (of_decide_eq_false (hnone x hx))
      · rfl

/-- Its slot has a row then, under the new id or the one that it had. -/
theorem upsertDocument_row {driverApplicationId : Id} {type : DriverDocumentType}
    {document : StoredDocument} {uuid : Id} {d : DriverDocument}
    (h : s.upsertDocument driverApplicationId type document uuid = .ok (d, s')) :
    (∃ x ∈ s'.driverDocuments, x.slot = (driverApplicationId, type)) ∧
      ∀ x ∈ s'.driverDocuments, x.id = uuid ∨ ∃ y ∈ s.driverDocuments, y.id = x.id := by
  simp only [upsertDocument, bind_eq_ok, pure, Except.pure, Except.ok.injEq, Prod.mk.injEq] at h
  obtain ⟨⟨d', documents⟩, hd, -, rfl⟩ := h
  rcases Table.upsert_ok hd with ⟨y, hy, hp, -, hu⟩ | ⟨-, -, hc⟩
  · have hrewrites := Table.Rewrites.of_updateMany hu
    constructor
    · have hmem := hrewrites.mem hy
      rw [if_pos hp] at hmem
      have hslot := of_decide_eq_true hp
      exact ⟨_, hmem, Prod.ext hslot.1 hslot.2⟩
    · intro x hx
      obtain ⟨z, hz, rfl⟩ := (hrewrites x).mp hx
      exact Or.inr ⟨z, hz, by dsimp only; split <;> rfl⟩
  · have hextends := Table.Extends.of_create hc
    refine ⟨⟨_, hextends.mem_new, rfl⟩, fun x hx => ?_⟩
    rcases (hextends x).mp hx with hx | rfl
    · exact Or.inr ⟨x, hx, rfl⟩
    · exact Or.inl rfl

private theorem setActiveProfile_wrote {userId : Id} {profile : ActiveProfile} {u : User}
    (h : s.setActiveProfile userId profile = .ok (u, s')) :
    Wrote (.setActiveProfile userId profile) s s' := by
  simp only [setActiveProfile, bind_eq_ok, pure, Except.pure, Except.ok.injEq,
    Prod.mk.injEq] at h
  obtain ⟨⟨u', users⟩, hu, -, rfl⟩ := h
  obtain ⟨-, -, -, -, -, hu⟩ := Table.update_ok hu
  refine .setActiveProfile ((Table.Rewrites.of_updateMany hu).congr fun x => ?_) rfl rfl rfl
  simp

theorem exec_wrote {cfg : Config} {o : OnboardingStmt} {b : o.Res}
    (h : exec cfg o s = .ok (b, s')) : Wrote o s s' := by
  cases o with
  | createApplication userId uuid => exact createApplication_wrote (thrown_ok h)
  | updateApplication id write => exact updateApplication_wrote (thrown_ok h)
  | approveBatch id userId uuid now => exact approveBatch_wrote (thrown_ok h)
  | upsertDocument driverApplicationId type document uuid =>
      exact upsertDocument_wrote (thrown_ok h)
  | setActiveProfile userId profile => exact setActiveProfile_wrote (thrown_ok h)
  | ride o =>
      simp only [exec] at h
      split at h
      · next b' ride hx =>
          cases h
          exact .ride rfl rfl rfl (Backend.exec_wrote hx)
      · cases h
  | _ =>
      cases h
      exact .nothing rfl rfl rfl rfl rfl

/-- Users neither come nor go. -/
theorem exec_users {cfg : Config} {o : OnboardingStmt} {b : o.Res}
    (h : exec cfg o s = .ok (b, s')) (id : Id) :
    (∃ u ∈ s'.users, u.id = id) ↔ ∃ u ∈ s.users, u.id = id := by
  have same (hu : s'.users = s.users) :
      (∃ u ∈ s'.users, u.id = id) ↔ ∃ u ∈ s.users, u.id = id := by
    rw [hu]
  cases exec_wrote h with
  | nothing ho hu ha hd hp => exact same hu
  | createApplication hu ha hd hp fresh => exact same hu
  | updateApplication hu ha hd hp => exact same hu
  | approveBatch hu ha hd hp => exact same hu
  | upsertDocument hu ha hd hp => exact same hu
  | @setActiveProfile userId activeProfile _ _ hu ha hd hp =>
      have hid (u : User) :
          (if u.id = userId then { u with activeProfile } else u).id = u.id := by
        split <;> rfl
      constructor
      · rintro ⟨x, hx, rfl⟩
        obtain ⟨u, hum, rfl⟩ := (hu x).mp hx
        exact ⟨u, hum, (hid u).symm⟩
      · rintro ⟨u, hum, rfl⟩
        exact ⟨_, hu.mem hum, hid u⟩
  | ride hu ha hd hr => exact same hu

/-- The storage is written by its own statements only. -/
theorem exec_files {cfg : Config} {o : OnboardingStmt} {b : o.Res}
    (h : exec cfg o s = .ok (b, s')) (hsave : ∀ key buffer, o ≠ .saveFile key buffer)
    (hdelete : ∀ key, o ≠ .deleteFile key) : s'.files = s.files := by
  cases o with
  | saveFile key buffer => exact absurd rfl (hsave key buffer)
  | deleteFile key => exact absurd rfl (hdelete key)
  | createApplication userId uuid =>
      have h := thrown_ok h
      simp only [createApplication, bind_eq_ok, pure, Except.pure, Except.ok.injEq,
        Prod.mk.injEq] at h
      obtain ⟨-, -, -, rfl⟩ := h
      rfl
  | updateApplication id write =>
      have h := thrown_ok h
      simp only [updateApplication, bind_eq_ok, pure, Except.pure, Except.ok.injEq,
        Prod.mk.injEq] at h
      obtain ⟨-, -, -, rfl⟩ := h
      rfl
  | approveBatch id userId uuid now =>
      have h := thrown_ok h
      simp only [approveBatch, bind_eq_ok, pure, Except.pure, Except.ok.injEq,
        Prod.mk.injEq] at h
      obtain ⟨-, -, -, -, -, rfl⟩ := h
      rfl
  | upsertDocument driverApplicationId type document uuid =>
      have hs := (upsertDocument_effect (thrown_ok h)).1
      rw [hs]
  | setActiveProfile userId profile =>
      have h := thrown_ok h
      simp only [setActiveProfile, bind_eq_ok, pure, Except.pure, Except.ok.injEq,
        Prod.mk.injEq] at h
      obtain ⟨-, -, -, rfl⟩ := h
      rfl
  | ride o =>
      simp only [exec] at h
      split at h
      · cases h
        rfl
      · cases h
  | _ =>
      cases h
      rfl

/-- Apart from the ride statements, only an approval writes the state of the ride
services: it adds a driver profile. -/
theorem exec_rideState {cfg : Config} {o : OnboardingStmt} {b : o.Res}
    (h : exec cfg o s = .ok (b, s')) (ho : ∀ r, o ≠ .ride r) :
    s'.ride = s.ride ∨ ∃ p tables, ProfileCreated p s.ride.tables tables ∧
      s'.ride = { s.ride with tables } := by
  cases o with
  | ride o => exact absurd rfl (ho o)
  | approveBatch id userId uuid now =>
      have h := thrown_ok h
      simp only [approveBatch, bind_eq_ok, pure, Except.pure, Except.ok.injEq,
        Prod.mk.injEq] at h
      obtain ⟨⟨_, applications⟩, -, ⟨_, tables⟩, hp, -, rfl⟩ := h
      exact Or.inr ⟨_, tables, RideTables.createDriverProfile_effect hp, rfl⟩
  | createApplication userId uuid =>
      have h := thrown_ok h
      simp only [createApplication, bind_eq_ok, pure, Except.pure, Except.ok.injEq,
        Prod.mk.injEq] at h
      obtain ⟨-, -, -, rfl⟩ := h
      exact Or.inl rfl
  | updateApplication id write =>
      have h := thrown_ok h
      simp only [updateApplication, bind_eq_ok, pure, Except.pure, Except.ok.injEq,
        Prod.mk.injEq] at h
      obtain ⟨-, -, -, rfl⟩ := h
      exact Or.inl rfl
  | upsertDocument driverApplicationId type document uuid =>
      have h := thrown_ok h
      simp only [upsertDocument, bind_eq_ok, pure, Except.pure, Except.ok.injEq,
        Prod.mk.injEq] at h
      obtain ⟨-, -, -, rfl⟩ := h
      exact Or.inl rfl
  | setActiveProfile userId profile =>
      have h := thrown_ok h
      simp only [setActiveProfile, bind_eq_ok, pure, Except.pure, Except.ok.injEq,
        Prod.mk.injEq] at h
      obtain ⟨-, -, -, rfl⟩ := h
      exact Or.inl rfl
  | _ =>
      cases h
      exact Or.inl rfl

theorem exec_rideTables {cfg : Config} {o : OnboardingStmt} {b : o.Res}
    (h : exec cfg o s = .ok (b, s')) (ho : ∀ r, o ≠ .ride r) :
    s'.ride.tables = s.ride.tables ∨ ∃ p, ProfileCreated p s.ride.tables s'.ride.tables := by
  rcases exec_rideState h ho with hsame | ⟨p, tables, hcreated, hride⟩
  · exact Or.inl (congrArg Backend.tables hsame)
  · right
    rw [hride]
    exact ⟨p, hcreated⟩

end Registry

end Reedr
