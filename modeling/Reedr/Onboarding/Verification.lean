import Reedr.Onboarding.Completeness

/-!
# A driver profile as proof of verification

The guard on driver routes takes the existence of a profile for a verified
application. An approval writes both at once. Every other write to an
application's status is by id, after a test on an earlier read, so one that
commits after the approval takes the verification back and leaves the profile.
-/

namespace Reedr
open Relational Interleaving

/-- Every driver profile belongs to a VERIFIED application of its user. -/
def Registry.ProfilesVerified (s : Registry) : Prop :=
  ∀ p ∈ s.driverProfiles, ∃ a ∈ s.driverApplications,
    a.id = p.driverApplicationId ∧ a.userId = p.userId ∧ a.status = .verified

instance (s : Registry) : Decidable s.ProfilesVerified :=
  inferInstanceAs (Decidable (∀ p ∈ s.driverProfiles, ∃ a ∈ s.driverApplications,
    a.id = p.driverApplicationId ∧ a.userId = p.userId ∧ a.status = .verified))

/-- A step, a restart or a rejection commits on an application without a profile. -/
def WritesUnapproved (w : OnboardingWorld) (_ : OnboardingInvocation) : OnboardingStmt → Prop
  | .updateApplication id _ => ∀ p ∈ w.shared.driverProfiles, p.driverApplicationId ≠ id
  | _ => True

namespace Registry.ProfilesVerified
variable {s s' : Registry}

/-- Statements that keep the applications and add no profile. -/
private theorem of_persists (h : s.ProfilesVerified)
    (ha : s.driverApplications.Persists (fun a => a) s'.driverApplications)
    (hp : s'.driverProfiles.Persists DriverProfile.identity s.driverProfiles) :
    s'.ProfilesVerified := by
  intro p' hp'
  obtain ⟨p, hpm, hpp⟩ := hp p' hp'
  have hpp := DriverProfile.identity_eq.mp hpp
  obtain ⟨a, ham, hid, hu, hst⟩ := h p hpm
  obtain ⟨a', ha', rfl⟩ := ha a ham
  exact ⟨a', ha', hid.trans hpp.2.2, hu.trans hpp.2.1, hst⟩

/-- A write other than a verification leaves the row in another status. -/
private theorem apply_status {write : ApplicationWrite} {a : DriverApplication}
    (hwrite : ∀ now, write ≠ .verify now) : (write.apply a).status ≠ .verified := by
  cases write with
  | verify now => exact absurd rfl (hwrite now)
  | _ => simp [ApplicationWrite.apply]

/-- So it keeps the profiles verified exactly when no profile rests on the row. -/
private theorem updateApplication_iff (h : s.ProfilesVerified) {id : Id}
    {write : ApplicationWrite} (hwrite : ∀ now, write ≠ .verify now)
    (ha : s.driverApplications.Rewrites (write.applyTo id) s'.driverApplications)
    (hp : s'.driverProfiles = s.driverProfiles) :
    s'.ProfilesVerified ↔ ∀ p ∈ s.driverProfiles, p.driverApplicationId ≠ id := by
  constructor
  · intro h' p hpm hpid
    obtain ⟨a', ha', hid, -, hst⟩ := h' p (hp ▸ hpm)
    obtain ⟨a, -, rfl⟩ := (ha a').mp ha'
    have hsame := (DriverApplication.identity_eq.mp (write.applyTo_identity id a)).1
    rw [ApplicationWrite.applyTo, if_pos (hsame.symm.trans (hid.trans hpid))] at hst
    exact apply_status hwrite hst
  · intro hne p hpm
    have hpm : p ∈ s.driverProfiles := hp ▸ hpm
    obtain ⟨a, ham, hid, hrest⟩ := h p hpm
    have hmem := ha.mem ham
    rw [ApplicationWrite.applyTo, if_neg fun hc => hne p hpm (hid.symm.trans hc)] at hmem
    exact ⟨a, hmem, hid, hrest⟩

/-- An approval verifies the application that its new profile rests on. -/
private theorem approveBatch (h : s.ProfilesVerified) {id userId uuid : Id} {now : Millis}
    (ha : s.driverApplications.Rewrites ((ApplicationWrite.verify now).applyTo id)
      s'.driverApplications)
    (hp : s.driverProfiles.Extends { id := uuid, userId, driverApplicationId := id }
      s'.driverProfiles)
    (hread : ∃ a ∈ s.driverApplications, a.id = id ∧ a.userId = userId) :
    s'.ProfilesVerified := by
  have hsame (a : DriverApplication) := DriverApplication.identity_eq.mp
    ((ApplicationWrite.verify now).applyTo_identity id a)
  intro p hpm
  rcases (hp p).mp hpm with hold | rfl
  · obtain ⟨a, ham, hid, hu, hst⟩ := h p hold
    refine ⟨_, ha.mem ham, (hsame a).1.trans hid, (hsame a).2.trans hu, ?_⟩
    unfold ApplicationWrite.applyTo
    split
    · rfl
    · exact hst
  · obtain ⟨a, ham, hid, hu⟩ := hread
    refine ⟨_, ha.mem ham, (hsame a).1.trans hid, (hsame a).2.trans hu, ?_⟩
    rw [ApplicationWrite.applyTo, if_pos hid]
    rfl

end Registry.ProfilesVerified

section Commit
variable {cfg : Config} {w : OnboardingWorld} {i : OnboardingInvocation} {o : OnboardingStmt}
  {b : o.Res} {s : Registry}

/-- A statement keeps the profiles verified exactly when it is not a late write
on an approved application. -/
theorem profilesVerified_commit_iff (hJ : Decided Linked LaterOn w i o)
    (h : w.shared.ProfilesVerified) (hx : Registry.exec cfg o w.shared = .ok (b, s)) :
    s.ProfilesVerified ↔ WritesUnapproved w i o := by
  have hwrote := Registry.exec_wrote hx
  generalize hsh : w.shared = s₀ at hwrote h
  cases hwrote with
  | nothing ho hu ha hd hp =>
      refine iff_of_true (h.of_persists (ha ▸ .refl _) (hp ▸ .refl _)) ?_
      cases o <;> trivial
  | createApplication hu ha hd hp fresh =>
      exact iff_of_true (h.of_persists ha.persists (hp ▸ .refl _)) trivial
  | @updateApplication id write _ _ hu ha hd hp =>
      simp only [WritesUnapproved, hsh]
      refine h.updateApplication_iff (fun now hnow => ?_) ha hp
      subst hnow
      exact hJ
  | @approveBatch id userId uuid now _ _ hu ha hd hp =>
      refine iff_of_true (h.approveBatch ha hp ?_) trivial
      obtain ⟨w₀, -, hw, a₀, ha₀, hid₀, hu₀, -⟩ := hJ
      obtain ⟨a, ham, haa⟩ := Registry.Matures.applications hw a₀ ha₀
      have haa := DriverApplication.identity_eq.mp haa
      exact ⟨a, hsh ▸ ham, haa.1.trans hid₀, haa.2.trans hu₀⟩
  | upsertDocument hu ha hd hp =>
      exact iff_of_true (h.of_persists (ha ▸ .refl _) (hp ▸ .refl _)) trivial
  | setActiveProfile hu ha hd hp =>
      exact iff_of_true (h.of_persists (ha ▸ .refl _) (hp ▸ .refl _)) trivial
  | ride hu ha hd hr =>
      refine iff_of_true (h.of_persists (ha ▸ .refl _) ?_) trivial
      exact Registry.profiles_back hr hJ

end Commit

/-- A run keeps every profile verified if and only if no step, restart or
rejection in it commits on an application that has a profile by then. -/
theorem profiles_verified_iff (cfg : Config) (fresh : FreshUsers) (ms : List OnboardingMove) :
    (∀ k, ((onboardingPool fresh).run (onboardingSystem cfg)
        (ms.take k)).world.shared.ProfilesVerified) ↔
      AllCommits (onboardingSystem cfg) WritesUnapproved (onboardingPool fresh) ms := by
  have hinit : (onboardingPool fresh).world.shared.ProfilesVerified :=
    fun p hp => absurd hp (Table.not_mem_empty p)
  rw [← allSteps_reached_iff (K := fun w : OnboardingWorld => w.shared.ProfilesVerified)
    hinit]
  exact (onboarding_discipline cfg).allSteps_iff (fun _ h => h) (fun h => h)
    (fun _ hJ hK hx => profilesVerified_commit_iff hJ hK hx)
    (onboardingPool_sound cfg fresh []) hinit ms

/-- One rider has signed up. -/
def oneApplicant : FreshUsers where
  users := ⟨[{ id := "applicant" }], List.pairwise_singleton _ _⟩
  rider := by decide

/-- An application runs through its steps; then two reviewers decide on it at
once: both read it under review, the approval commits, the rejection commits. -/
def doubleReview : List OnboardingMove :=
  let image : UploadableFile := ⟨"bytes", "image/png", "scan.png", 5⟩
  [.invoke (.start "applicant" "application"), .advance 0, .advance 0,
    .invoke (.submitPersonalInfo "applicant" ⟨"Ada", 0, "1 Main Street"⟩),
    .advance 1, .advance 1,
    .invoke (.submitLicense "applicant" ⟨"L-1", 1000⟩ image "key-1" "document-1"),
    .advance 2, .advance 2, .advance 2, .advance 2, .advance 2,
    .invoke (.submitVehicle "applicant" ⟨"Make", "Model", 2020, "blue", "PLATE", 1000⟩
      [⟨.vehiclePhoto, image, "key-2", "document-2"⟩,
        ⟨.vehicleRegistration, image, "key-3", "document-3"⟩])] ++
  List.replicate 11 (.advance 3) ++
  [.invoke (.review "application" .verified none "profile"), .advance 4, .advance 4,
    .invoke (.review "application" .rejected (some "blurred scan") "unused"),
    .advance 5, .advance 5, .advance 4, .advance 5]

/-- It leaves a driver profile on a REJECTED application. -/
theorem not_profilesVerified_doubleReview :
    ¬ ((onboardingPool oneApplicant).run (onboardingSystem .default)
      doubleReview).world.shared.ProfilesVerified := by
  decide +kernel

end Reedr
