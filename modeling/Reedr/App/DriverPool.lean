import Reedr.App.DriverMode
import Reedr.Library.Embedding
import Reedr.Onboarding.Effects

/-!
# Who stays in the matching pool

The mode of a user and the availability of their profile are columns of two
tables, and a switch to rider mode writes first the one and then the other. As
long as it is under way it owes the second write.
-/

namespace Reedr
open Relational Interleaving

/-- The profile of the user is online. -/
def RideTables.Online (db : RideTables) (userId : Id) : Prop :=
  ∃ p ∈ db.driverProfiles, p.userId = userId ∧ p.isOnline = true

instance (db : RideTables) (userId : Id) : Decidable (db.Online userId) :=
  inferInstanceAs (Decidable (∃ p ∈ db.driverProfiles, _))

/-- Everybody in the matching pool is in driver mode. -/
def AppState.PoolInDriverMode (s : AppState) : Prop :=
  ∀ p ∈ s.tables.driverProfiles, p.isOnline = true → s.InDriverMode p.userId

instance (s : AppState) : Decidable s.PoolInDriverMode :=
  inferInstanceAs (Decidable (∀ p ∈ s.tables.driverProfiles, _))

/-- Users in rider mode, whose profiles are offline. -/
structure OffDuty where
  registry : Registry
  rider : ∀ u ∈ registry.users, u.activeProfile = .rider
  offline : ∀ p ∈ registry.driverProfiles, p.isOnline = false

/-- The application before any call, with these users. -/
def OffDuty.pool (start : OffDuty) : AppPool := Pool.init { rated := .unrated start.registry }

/-- The user whose profile is put online. -/
def Stmt.putsOnline : Stmt → Option Id
  | .setOnline userId isOnline => if isOnline then some userId else none
  | .createDriverProfile p => if p.isOnline then some p.userId else none
  | _ => none

/-- Takes the user's profile offline, or finds that there is none. -/
def Stmt.settles (userId : Id) : Stmt × Backend → Bool
  | (.setOnline id false, _) => id = userId
  | (.findIdentity id, s) => id = userId && (s.tables.findDriverProfileByUser userId).isNone
  | _ => false

namespace OnboardingStmt

/-- Puts the user into rider mode. -/
def leavesDriverMode (userId : Id) : OnboardingStmt → Bool
  | .setActiveProfile id .rider => id = userId
  | _ => false

/-- Puts the user into one of the modes. -/
def switchesMode (userId : Id) : OnboardingStmt → Bool
  | .setActiveProfile id _ => id = userId
  | _ => false

def settles (userId : Id) : OnboardingStmt × Registry → Bool
  | (.ride o, s) => Stmt.settles userId (o, s.ride)
  | _ => false

end OnboardingStmt

namespace AppStmt

def putsOnline : AppStmt → Option Id
  | .ride o => o.putsOnline
  | _ => none

def leavesDriverMode (userId : Id) : AppStmt → Bool
  | .onboarding o => o.leavesDriverMode userId
  | _ => false

def switchesMode (userId : Id) : AppStmt → Bool
  | .onboarding o => o.switchesMode userId
  | _ => false

def settles (userId : Id) : AppStmt × AppState → Bool
  | (.onboarding o, s) => OnboardingStmt.settles userId (o, s.registry)
  | _ => false

end AppStmt

/-- A switch from one mode to the other. -/
def AppInvocation.isSwitch : AppInvocation → Bool
  | .onboarding (.setActiveProfile _ _) => true
  | _ => false

/-- The call has put the user into rider mode and not yet taken them offline. -/
def OfflineDue (w : AppWorld) (n : Nat) (userId : Id) : Prop :=
  (∃ x ∈ memory n w.trace, x.1.leavesDriverMode userId = true) ∧
    ∀ x ∈ memory n w.trace, AppStmt.settles userId x = false

instance (w : AppWorld) (n : Nat) (userId : Id) : Decidable (OfflineDue w n userId) :=
  inferInstanceAs (Decidable ((∃ x ∈ memory n w.trace, _) ∧ ∀ x ∈ memory n w.trace, _))

/-- The user is in the matching pool without being in driver mode. -/
def OnlineAsRider (w : AppWorld) (userId : Id) : Prop :=
  w.shared.tables.Online userId ∧ ¬ w.shared.InDriverMode userId

section Effects
variable {cfg : Config} {userId : Id}

/-- Most statements leave the profiles alone. -/
theorem Backend.Wrote.sameProfiles {o : Stmt} {db db' : RideTables} (h : Wrote o db db')
    (ho : o.updatesProfile = false) (hcreate : ∀ p, o ≠ .createDriverProfile p) :
    db'.driverProfiles = db.driverProfiles := by
  cases h with
  | nothing _ => rfl
  | createDriverProfile _ => exact absurd rfl (hcreate _)
  | updateDriverProfile hu _ _ => exact nomatch ho.symm.trans hu
  | createRideRequest he => exact he.profiles
  | upsertOffer he => exact he.profiles
  | acceptBatch he => exact he.profiles
  | expireOffer he => exact he.profiles
  | expireDriverOffers he => exact he.profiles
  | cancelBatch he => exact he.profiles
  | startBatch he => exact he.profiles
  | completeBatch he => exact he.profiles

/-- No other statement brings a profile online. -/
theorem Backend.exec_online {o : Stmt} {b : o.Res} {s s' : Backend}
    (h : exec cfg o s = .ok (b, s')) (ho : userId ∉ o.putsOnline)
    (hon : s'.tables.Online userId) : s.tables.Online userId := by
  cases o with
  | setOnline id isOnline =>
      obtain ⟨he, -⟩ := RideTables.setOnline_effect
        (onTables_ok (fun db => db.setOnline id isOnline) h).1
      obtain ⟨p, hp, rfl, hpon⟩ := hon
      obtain ⟨q, hq, rfl⟩ := (he.profiles p).mp hp
      by_cases hid : q.userId = id
      · simp [setOnlineRow, hid] at hpon
        simp [Stmt.putsOnline, setOnlineRow, hid, hpon] at ho
      · simp only [setOnlineRow, if_neg hid] at hpon ⊢
        exact ⟨q, hq, rfl, hpon⟩
  | setLocation id lat lng now =>
      have he := RideTables.setLocation_effect
        (onTables_ok (fun db => db.setLocation id lat lng now) h).1
      obtain ⟨p, hp, hpu, hpon⟩ := hon
      obtain ⟨q, hq, rfl⟩ := (he.profiles p).mp hp
      refine ⟨q, hq, ?_, ?_⟩
      · rw [← hpu]
        unfold setLocationRow
        split <;> rfl
      · rw [← hpon]
        unfold setLocationRow
        split <;> rfl
  | createDriverProfile p =>
      have he := RideTables.createDriverProfile_effect
        (onTables_ok (fun db => db.createDriverProfile p) h).1
      obtain ⟨q, hq, hqu, hqon⟩ := hon
      rcases (he.profiles q).mp hq with hq | rfl
      · exact ⟨q, hq, hqu, hqon⟩
      · simp [Stmt.putsOnline, hqu, hqon] at ho
  | _ =>
      rwa [RideTables.Online, ← (exec_wrote h).sameProfiles rfl (by simp)]

/-- Whoever is put offline is not in the pool. -/
theorem Backend.exec_setOffline {b : (Stmt.setOnline userId false).Res} {s s' : Backend}
    (h : exec cfg (.setOnline userId false) s = .ok (b, s')) : ¬ s'.tables.Online userId := by
  obtain ⟨he, -⟩ := RideTables.setOnline_effect
    (onTables_ok (fun db => db.setOnline userId false) h).1
  rintro ⟨p, hp, hpu, hpon⟩
  obtain ⟨q, hq, rfl⟩ := (he.profiles p).mp hp
  by_cases hid : q.userId = userId
  · simp [setOnlineRow, hid] at hpon
  · simp only [setOnlineRow, if_neg hid] at hpu
    exact hid hpu

theorem Registry.exec_online {o : OnboardingStmt} {b : o.Res} {s s' : Registry}
    (h : exec cfg o s = .ok (b, s')) (ho : ∀ r, o = .ride r → userId ∉ r.putsOnline)
    (hon : s'.ride.tables.Online userId) : s.ride.tables.Online userId := by
  have same (hp : s'.driverProfiles = s.driverProfiles) : s.ride.tables.Online userId := by
    rwa [RideTables.Online, show s.ride.tables.driverProfiles = _ from hp.symm]
  cases exec_wrote h with
  | nothing _ _ _ _ hp => exact same hp
  | createApplication _ _ _ hp _ => exact same hp
  | updateApplication _ _ _ hp => exact same hp
  | approveBatch _ _ _ hp =>
      obtain ⟨p, hpm, hpu, hpon⟩ := hon
      rcases (hp p).mp hpm with hpm | rfl
      · exact ⟨p, hpm, hpu, hpon⟩
      · cases hpon
  | upsertDocument _ _ _ hp => exact same hp
  | setActiveProfile _ _ _ hp => exact same hp
  | ride _ _ _ _ => exact Backend.exec_online ((rideStatements_lifts cfg).ok h) (ho _ rfl) hon

namespace AppState
variable {s s' : AppState} {o : AppStmt} {b : o.Res}

/-- Ratings and sockets have no part in users and ride tables. -/
theorem exec_registry (h : exec cfg o s = .ok (b, s')) (ho : ∀ o', o ≠ .onboarding o') :
    s'.registry.users = s.registry.users ∧ s'.tables = s.tables := by
  cases o with
  | rating r =>
      have hr : RatedRegistry.exec cfg r s.rated = .ok (b, s'.rated) :=
        (ratingsInApp_lifts cfg).ok h
      have hwrote := RatedRegistry.exec_wrote hr
      suffices hsame : s'.rated.registry = s.rated.registry from
        ⟨congrArg Registry.users hsame, congrArg (fun r => r.ride.tables) hsame⟩
      generalize s.rated = t at hwrote ⊢
      generalize s'.rated = t' at hwrote ⊢
      cases hwrote with
      | onboarding _ => exact absurd rfl (ho _)
      | createRating _ => rfl
      | aggregateRatings => rfl
      | updateUserRating _ => rfl
  | _ =>
      cases h
      exact ⟨rfl, rfl⟩

theorem exec_online (h : exec cfg o s = .ok (b, s')) (ho : userId ∉ o.putsOnline)
    (hon : s'.tables.Online userId) : s.tables.Online userId := by
  by_cases hreg : ∃ o', o = .onboarding o'
  · obtain ⟨o', rfl⟩ := hreg
    refine Registry.exec_online (exec_onboarding h) ?_ hon
    rintro r rfl
    exact ho
  · rwa [← (exec_registry h fun o' ho' => hreg ⟨o', ho'⟩).2]

/-- Nobody leaves driver mode but by a switch. -/
theorem InDriverMode.exec (hmode : s.InDriverMode userId) (h : exec cfg o s = .ok (b, s'))
    (ho : o.switchesMode userId = false) : s'.InDriverMode userId := by
  have same (hu : s'.registry.users = s.registry.users) : s'.InDriverMode userId := by
    rwa [InDriverMode, hu]
  by_cases hreg : ∃ o', o = .onboarding o'
  · obtain ⟨o', rfl⟩ := hreg
    have hwrote := Registry.exec_wrote (exec_onboarding h)
    cases hwrote with
    | nothing _ hu _ _ _ => exact same hu
    | createApplication hu _ _ _ _ => exact same hu
    | updateApplication hu _ _ _ => exact same hu
    | approveBatch hu _ _ _ => exact same hu
    | upsertDocument hu _ _ _ => exact same hu
    | @setActiveProfile id profile _ _ hu _ _ _ =>
        obtain ⟨u, hum, rfl, hdrv⟩ := hmode
        have hid : u.id ≠ id := fun hid => of_decide_eq_false ho hid.symm
        exact ⟨u, (hu u).mpr ⟨u, hum, if_neg hid⟩, rfl, hdrv⟩
    | ride hu _ _ _ => exact same hu
  · exact same (exec_registry h fun o' ho' => hreg ⟨o', ho'⟩).1

theorem exec_enterDriverMode {b : (AppStmt.onboarding (.setActiveProfile userId .driver)).Res}
    (h : AppState.exec cfg (.onboarding (.setActiveProfile userId .driver)) s = .ok (b, s')) :
    s'.InDriverMode userId := by
  have hr : s.registry.setActiveProfile userId .driver = .ok (b, s'.registry) :=
    Registry.thrown_ok (exec_onboarding h)
  simp only [Registry.setActiveProfile, bind_eq_ok, pure, Except.pure, Except.ok.injEq,
    Prod.mk.injEq] at hr
  obtain ⟨⟨_, users⟩, hupdate, -, hr⟩ := hr
  obtain ⟨u, hu, hid, -, -, hmany⟩ := Table.update_ok hupdate
  have hmem := (Table.Rewrites.of_updateMany hmany).mem hu
  rw [if_pos hid] at hmem
  rw [InDriverMode, ← hr]
  exact ⟨_, hmem, of_decide_eq_true hid, rfl⟩

end AppState

end Effects

section Calls
variable {cfg : Config}

/-- An identity is only missing if there is no profile. -/
theorem findIdentityByUserId_recalls (userId : Id) :
    (DriversService.findIdentityByUserId userId).Recalls (rideSystem cfg) (fun _ => True)
      (fun _ _ => True)
      (fun l r => r = .ok none → ∃ x ∈ l, Stmt.settles userId x = true) [] := by
  apply Call.Recalls.perform_bind trivial
  · intro s identity s' _ _
    cases identity with
    | some identity => exact nofun
    | none =>
        apply Call.Recalls.perform_bind trivial
        · rintro s₁ value s₁' _ ⟨⟩
          apply Call.Recalls.perform_bind trivial
          · intro s₂ _ s₂' _ _ hnone
            refine ⟨(.findIdentity userId, s₁), by simp, ?_⟩
            have hprofile : s₁.tables.findDriverProfileByUser userId = none := by
              simpa using hnone
            simp [Stmt.settles, hprofile]
          · exact fun _ _ => nofun
        · exact fun _ _ => nofun
  · exact fun _ _ => nofun

/-- Having returned, `goOffline` has put the profile offline or found none. -/
theorem goOffline_recalls (userId : Id) :
    (DriversService.goOffline cfg userId).Recalls (rideSystem cfg) (fun _ => True)
      (fun _ _ => True)
      (fun l r => r = .ok () → ∃ x ∈ l, Stmt.settles userId x = true) [] := by
  apply Call.Recalls.bind
  apply (findIdentityByUserId_recalls userId).mono
  intro l r hl
  cases r with
  | error e => exact nofun
  | ok profile =>
      cases profile with
      | none => exact fun _ => hl rfl
      | some profile =>
          apply Call.Recalls.perform_bind trivial
          · intro s updated s' _ _
            -- From here on it does not matter what the call does, or whether it fails.
            apply Call.Recalls.of_uses (P := fun _ => True)
              (Q := fun l => ∃ x ∈ l, Stmt.settles userId x = true) (Call.Uses.any _)
            · exact fun _ _ _ _ => trivial
            · rintro l o s ⟨x, hx, hset⟩ _
              exact ⟨x, List.mem_append_left _ hx, hset⟩
            · exact fun _ _ hset _ => hset
            · exact ⟨(.setOnline userId false, s), by simp, decide_eq_true rfl⟩
          · exact fun _ _ => nofun

/-- What a call remembers when it puts a user into rider mode. -/
def OnboardingStmt.SwitchFact (l : List (OnboardingStmt × Registry)) (o : OnboardingStmt) : Prop :=
  ∀ v, o.leavesDriverMode v = true → ∀ x ∈ l, OnboardingStmt.settles v x = false

/-- Whoever was put into rider mode has been taken offline. -/
def OnboardingStmt.Switched (l : List (OnboardingStmt × Registry)) : Prop :=
  ∀ v, (∃ x ∈ l, x.1.leavesDriverMode v = true) → ∃ x ∈ l, OnboardingStmt.settles v x = true

theorem setActiveProfile_recalls (userId : Id) (profile : ActiveProfile) :
    (UsersService.setActiveProfile cfg userId profile).void.Recalls (onboardingSystem cfg)
      (fun _ => True) OnboardingStmt.SwitchFact
      (fun l r => r = .ok () → OnboardingStmt.Switched l) [] := by
  cases profile with
  | driver =>
      apply Call.Recalls.of_uses (P := fun o : OnboardingStmt => ∀ v, o.leavesDriverMode v = false)
        (Q := fun l : List (OnboardingStmt × Registry) =>
          ∀ x ∈ l, ∀ v, x.1.leavesDriverMode v = false)
      · apply Call.Uses.void
        refine Call.Uses.bind (Call.Uses.perform fun _ => rfl) fun _ => ?_
        apply Call.Uses.bind (Call.Uses.required _ _)
        intro _
        exact Call.Uses.bind (Call.Uses.perform fun _ => rfl) fun _ => trivial
      · intro l o _ ho v hv
        exact nomatch (ho v).symm.trans hv
      · intro l o s hl ho x hx
        rcases List.mem_append.mp hx with hx | hx
        · exact hl x hx
        · obtain rfl := List.mem_singleton.mp hx
          exact ho
      · intro l r hl _ v hv
        obtain ⟨x, hx, hv⟩ := hv
        exact nomatch (hl x hx v).symm.trans hv
      · exact fun x hx => nomatch hx
  | rider =>
      apply Call.Recalls.bind
      apply Call.Recalls.perform_bind
      · exact fun _ _ x hx => nomatch hx
      · intro s user s' _ _
        apply Call.Recalls.bind
        refine Call.Recalls.embed (rideStatements_lifts cfg) [(.setActiveProfile userId .rider, s)]
          (fun _ _ => trivial) ?_ ?_ (goOffline_recalls userId) .nil
        · exact fun _ _ _ _ _ _ => nofun
        · intro l l' r hrel hl
          cases r with
          | error e => exact nofun
          | ok _ =>
              intro _ v hv
              obtain ⟨x, hx, hv⟩ := hv
              obtain rfl : userId = v := by
                rcases List.mem_append.mp hx with hx | hx
                · obtain rfl := List.mem_singleton.mp hx
                  exact of_decide_eq_true hv
                · obtain ⟨o, hop, -⟩ := hrel.mem_inner hx
                  rw [hop] at hv
                  exact nomatch hv
              obtain ⟨⟨o, _⟩, hy, hset⟩ := hl rfl
              obtain ⟨t, ht, rfl⟩ := hrel.mem_outer hy
              exact ⟨_, List.mem_append_right _ ht, hset⟩
      · exact fun _ _ => nofun

/-- What a call remembers when it issues a statement: only a switch puts a user
into rider mode, and takes them offline afterwards. -/
def SwitchFact (i : AppInvocation) (l : List (AppStmt × AppState)) (o : AppStmt) : Prop :=
  (∀ v, o.leavesDriverMode v = true → ∀ x ∈ l, AppStmt.settles v x = false) ∧
    (i.isSwitch = true ∨ ∀ x ∈ l, ∀ v, x.1.leavesDriverMode v = false)

/-- Whoever was put into rider mode has been taken offline. -/
def Switched (l : List (AppStmt × AppState)) : Prop :=
  ∀ v, (∃ x ∈ l, x.1.leavesDriverMode v = true) → ∃ x ∈ l, AppStmt.settles v x = true

private theorem stays_guarded {α : Type} (userId : Id) (required : ActiveProfile)
    (c : RideCall α) :
    (guarded userId required c).Uses fun o : AppStmt => ∀ v, o.leavesDriverMode v = false := by
  apply Call.Uses.bind
  · refine Call.Uses.bind (Call.Uses.perform fun _ => rfl) fun record => ?_
    exact Call.Uses.bind (Call.Uses.ensure _ _) fun _ => Call.Uses.ensure _ _
  · exact fun _ => Call.Uses.embed (fun _ _ _ => rfl) (Call.Uses.any c)

private theorem stays_ride {α : Type} (c : RideCall α) :
    (c.embed rideInApp).Uses fun o : AppStmt => ∀ v, o.leavesDriverMode v = false :=
  Call.Uses.embed (fun _ _ _ => rfl) (Call.Uses.any c)

/-- Nothing else puts users into rider mode. -/
theorem AppInvocation.code_stays (i : AppInvocation) (hi : i.isSwitch = false) :
    (i.code cfg).Uses fun o : AppStmt => ∀ v, o.leavesDriverMode v = false := by
  cases i with
  | onboarding i =>
      refine Call.Uses.embed (fun o ho v => ?_) (i.code_applies fun userId profile h => ?_)
      · cases o with
        | setActiveProfile userId profile => exact nomatch ho
        | _ => rfl
      · subst h
        exact nomatch hi
  | updateStatus userId isOnline => exact Call.Uses.void (stays_guarded _ _ _)
  | updateLocation userId lat lng => exact Call.Uses.void (stays_guarded _ _ _)
  | createRideRequest riderId dto uuid => exact Call.Uses.void (stays_guarded _ _ _)
  | cancelRideRequest id requester reason => exact stays_ride _
  | startTrip tripId userId => exact Call.Uses.void (stays_guarded _ _ _)
  | completeTrip tripId userId => exact Call.Uses.void (stays_guarded _ _ _)
  | rateTrip tripId fromUserId dto uuid =>
      refine Call.Uses.embed (P := fun o => ∀ v, (AppStmt.rating o).leavesDriverMode v = false)
        (fun _ ho => ho) (Call.Uses.void ?_)
      exact rateTrip_uses (fun _ _ => rfl) (fun _ _ => rfl) (fun _ _ => rfl)
        (fun _ _ _ => rfl) tripId fromUserId dto uuid
  | connect userId => exact Call.Uses.perform fun _ => rfl
  | disconnect userId =>
      refine Call.Uses.bind (Call.Uses.perform fun _ => rfl) fun stillConnectedElsewhere => ?_
      cases stillConnectedElsewhere with
      | true => trivial
      | false => exact Call.Uses.recover (stays_ride _) fun _ => trivial
  | offerSubmit userId rideRequestId offeredFare uuid =>
      refine Call.Uses.bind (Call.Uses.perform fun _ => rfl) fun allowed => ?_
      cases allowed with
      | false => exact Call.Uses.perform fun _ => rfl
      | true => exact Call.Uses.recover (stays_ride _) fun _ => Call.Uses.perform fun _ => rfl
  | offerAccept userId offerId uuid =>
      refine Call.Uses.bind (Call.Uses.perform fun _ => rfl) fun allowed => ?_
      cases allowed with
      | false => exact Call.Uses.perform fun _ => rfl
      | true => exact Call.Uses.recover (stays_ride _) fun _ => Call.Uses.perform fun _ => rfl
  | locationUpdate userId lat lng => exact stays_ride _
  | trackSubscribe matchRadiusKm userId lat lng radiusKm =>
      refine Call.Uses.bind (Call.Uses.perform fun _ => rfl) fun allowed => ?_
      cases allowed with
      | false => exact Call.Uses.perform fun _ => rfl
      | true => exact Call.Uses.perform fun _ => rfl
  | trackUnsubscribe userId => exact Call.Uses.perform fun _ => rfl
  | goOffline userId => exact stays_ride _
  | runJob jobId => exact stays_ride _
  | evictIdentity userId => exact Call.Uses.perform fun _ => rfl

theorem code_switches (i : AppInvocation) :
    (i.code cfg).Recalls (appSystem cfg) (fun _ => True) (SwitchFact i)
      (fun l r => r = .ok () → Switched l) [] := by
  by_cases hi : ∃ userId profile, i = .onboarding (.setActiveProfile userId profile)
  · obtain ⟨userId, profile, rfl⟩ := hi
    refine Call.Recalls.embed (onboardingInApp_lifts cfg) [] (fun _ _ => trivial)
      ?_ ?_ (setActiveProfile_recalls userId profile) .nil
    · intro l l' o hrel hfact
      refine ⟨fun v hv x hx => ?_, Or.inl rfl⟩
      obtain ⟨o₁, hop, hmem⟩ := hrel.mem_inner hx
      have hset := hfact v hv _ hmem
      obtain ⟨_, s⟩ := x
      cases hop
      exact hset
    · intro l l' r hrel hl hr v hv
      obtain ⟨x, hx, hv⟩ := hv
      obtain ⟨o, hop, hmem⟩ := hrel.mem_inner hx
      rw [hop] at hv
      obtain ⟨⟨o, _⟩, hy, hset⟩ := hl hr v ⟨_, hmem, hv⟩
      obtain ⟨t, ht, rfl⟩ := hrel.mem_outer hy
      exact ⟨_, ht, hset⟩
  · apply Call.Recalls.of_uses (Q := fun l : List (AppStmt × AppState) =>
      ∀ x ∈ l, ∀ v, x.1.leavesDriverMode v = false) (i.code_stays ?_)
    · intro l o hl ho
      refine ⟨fun v hv => ?_, Or.inr hl⟩
      exact nomatch (ho v).symm.trans hv
    · intro l o s hl ho x hx
      rcases List.mem_append.mp hx with hx | hx
      · exact hl x hx
      · obtain rfl := List.mem_singleton.mp hx
        exact ho
    · intro l r hl _ v hv
      obtain ⟨x, hx, hv⟩ := hv
      exact nomatch (hl x hx v).symm.trans hv
    · exact fun x hx => nomatch hx
    · cases i with
      | onboarding i =>
          cases i with
          | setActiveProfile userId profile => exact absurd ⟨userId, profile, rfl⟩ hi
          | _ => rfl
      | _ => rfl

end Calls

/-- A profile is put online for a user in driver mode, or while a switch has yet to
take them offline again. -/
def OnlineInMode (p : AppPool) (n : Nat) (o : AppStmt) : Prop :=
  ∀ u ∈ o.putsOnline, p.world.shared.InDriverMode u ∨ ∃ n', n' ≠ n ∧ p.Owes OfflineDue n' u

/-- A switch that throws leaves nobody online in rider mode, unless another one
has yet to take them offline. -/
def ThrowsOffline (cfg : Config) (p : AppPool) (m : AppMove) : Prop :=
  ∀ n, p.Throws (appSystem cfg) m n →
    ∀ d ∈ (p.step (appSystem cfg) m).world.shared.tables.driverProfiles, d.isOnline = true →
      OfflineDue (p.step (appSystem cfg) m).world n d.userId →
        (p.step (appSystem cfg) m).world.shared.InDriverMode d.userId ∨
          ∃ n', n' ≠ n ∧ p.Owes OfflineDue n' d.userId

/-- Neither of the two ever goes wrong in the run. -/
def SwitchesOffline (cfg : Config) : AppPool → List AppMove → Prop :=
  Along (appSystem cfg) fun p m =>
    (∀ n i o b s, p.Commits (appSystem cfg) m n i o b s → OnlineInMode p n o) ∧
      ThrowsOffline cfg p m

def NoSwitchInFlight (p : AppPool) : Prop :=
  ∀ c ∈ p.running, c.2.ended = true ∨ c.1.isSwitch = false

section Decidable

instance (p : AppPool) (n : Nat) (o : AppStmt) : Decidable (OnlineInMode p n o) :=
  inferInstanceAs (Decidable (∀ u ∈ o.putsOnline, _))

instance (cfg : Config) (p : AppPool) (m : AppMove) : Decidable (ThrowsOffline cfg p m) :=
  inferInstanceAs (Decidable (∀ n, p.Throws (appSystem cfg) m n → _))

instance (cfg : Config) (p : AppPool) (ms : List AppMove) : Decidable (SwitchesOffline cfg p ms) :=
  inferInstanceAs (Decidable (Along _ _ _ _))

instance (p : AppPool) : Decidable (NoSwitchInFlight p) :=
  inferInstanceAs (Decidable (∀ c ∈ p.running, c.2.ended = true ∨ c.1.isSwitch = false))

end Decidable

section Runs
variable {cfg : Config} {p : AppPool}

/-- What each call remembers. -/
abbrev SwitchesRecalled (cfg : Config) : AppPool → Prop :=
  MemoryInvariant.Holds (fun _ => True) fun i l c =>
    c.Recalls (appSystem cfg) (fun _ => True) (SwitchFact i) (fun l r => r = .ok () → Switched l) l

theorem switches_recalled (cfg : Config) :
    MemoryInvariant (appSystem cfg) (fun _ => True) fun i l c =>
      c.Recalls (appSystem cfg) (fun _ => True) (SwitchFact i)
        (fun l r => r = .ok () → Switched l) l :=
  .of_recalls (fun _ _ => trivial) code_switches

private theorem offlineDue_commit_ne {w : AppWorld} {n m : Nat} {i : AppInvocation} {o : AppStmt}
    {s : AppState} {u : Id} (hne : m ≠ n) (h : OfflineDue w m u) :
    OfflineDue (w.commit n i o s) m u := by
  rwa [OfflineDue, memory_commit_ne _ hne]

/-- A call goes on owing until it executes a statement that settles. -/
private theorem offlineDue_commit_self {w : AppWorld} {n : Nat} {i : AppInvocation} {o : AppStmt}
    {s : AppState} {u : Id} (h : OfflineDue w n u) (ho : AppStmt.settles u (o, w.shared) = false) :
    OfflineDue (w.commit n i o s) n u := by
  obtain ⟨⟨x, hx, hleaves⟩, hnone⟩ := h
  rw [OfflineDue, memory_commit_self]
  refine ⟨⟨x, List.mem_append_left _ hx, hleaves⟩, fun y hy => ?_⟩
  rcases List.mem_append.mp hy with hy | hy
  · exact hnone y hy
  · rw [List.mem_singleton.mp hy]
    exact ho

/-- Whoever is online after a statement is not settled by it. -/
private theorem settles_of_online {o : AppStmt} {b : o.Res} {s s' : AppState} {u : Id}
    (h : AppState.exec cfg o s = .ok (b, s')) (hon : s'.tables.Online u)
    (hold : s.tables.Online u) : AppStmt.settles u (o, s) = false := by
  by_contra hset
  rw [Bool.not_eq_false] at hset
  cases o with
  | rating r =>
      cases r with
      | onboarding o =>
          cases o with
          | ride o =>
              cases o with
              | setOnline id isOnline =>
                  cases isOnline with
                  | true => exact nomatch hset
                  | false =>
                      obtain rfl : id = u := of_decide_eq_true hset
                      exact Backend.exec_setOffline (AppState.exec_ride h) hon
              | findIdentity id =>
                  obtain ⟨p, hp, hpu, -⟩ := hold
                  have hnone : s.tables.findDriverProfileByUser u = none := by
                    simpa [AppStmt.settles, OnboardingStmt.settles, Stmt.settles] using
                      (Bool.and_eq_true_iff.mp hset).2
                  exact of_decide_eq_false (Table.find?_none hnone p hp) hpu
              | _ => exact nomatch hset
          | _ => exact nomatch hset
      | _ => exact nomatch hset
  | _ => exact nomatch hset

/-- A statement leaves nobody online in rider mode whom nobody has to take offline. -/
private theorem poolCovered_commit (hp : SwitchesRecalled cfg p)
    (hcovered : p.Covered OfflineDue OnlineAsRider) {m : AppMove} {n : Nat} {i : AppInvocation}
    {o : AppStmt} {b : o.Res} {s : AppState} (hc : p.Commits (appSystem cfg) m n i o b s)
    (honline : OnlineInMode p n o) {u : Id} (hexposed : OnlineAsRider (p.world.commit n i o s) u) :
    OfflineDue (p.world.commit n i o s) n u ∨ ∃ n', n' ≠ n ∧ p.Owes OfflineDue n' u := by
  obtain ⟨k, hrun⟩ := hc.issued
  have hfact := (hp.thread hrun).1
  obtain ⟨hon, hrider⟩ := hexposed
  by_cases hputs : u ∈ o.putsOnline
  · -- A statement that puts somebody online switches no mode.
    rcases honline u hputs with hmode | hother
    · refine absurd (hmode.exec hc.effect ?_) hrider
      cases o with
      | rating r =>
          cases r with
          | onboarding o =>
              cases o with
              | ride o => rfl
              | _ => exact nomatch hputs
          | _ => exact nomatch hputs
      | _ => exact nomatch hputs
    · exact Or.inr hother
  have hold : p.world.shared.tables.Online u := AppState.exec_online hc.effect hputs hon
  by_cases hswitch : o.switchesMode u = true
  · left
    cases o with
    | rating r =>
        cases r with
        | onboarding o =>
            cases o with
            | setActiveProfile id profile =>
                obtain rfl : id = u := of_decide_eq_true hswitch
                cases profile with
                | driver => exact absurd (AppState.exec_enterDriverMode hc.effect) hrider
                | rider =>
                    have hleaves : (AppStmt.onboarding
                        (.setActiveProfile id .rider)).leavesDriverMode id = true :=
                      decide_eq_true rfl
                    rw [OfflineDue, memory_commit_self]
                    constructor
                    · exact ⟨_, List.mem_append_right _ (List.mem_singleton_self _), hleaves⟩
                    · intro x hx
                      rcases List.mem_append.mp hx with hx | hx
                      · exact hfact.1 id hleaves x hx
                      · rw [List.mem_singleton.mp hx]
                        rfl
            | _ => exact nomatch hswitch
        | _ => exact nomatch hswitch
    | _ => exact nomatch hswitch
  · rw [Bool.not_eq_true] at hswitch
    have hbefore : OnlineAsRider p.world u :=
      ⟨hold, fun hmode => hrider (hmode.exec hc.effect hswitch)⟩
    obtain ⟨n', howes⟩ := hcovered u hbefore
    by_cases hn : n' = n
    · subst hn
      exact Or.inl (offlineDue_commit_self howes.2 (settles_of_online hc.effect hon hold))
    · exact Or.inr ⟨n', hn, howes⟩

private theorem poolCovered_step (hp : SwitchesRecalled cfg p)
    (hcovered : p.Covered OfflineDue OnlineAsRider) (m : AppMove)
    (honline : ∀ n i o b s, p.Commits (appSystem cfg) m n i o b s → OnlineInMode p n o)
    (hthrows : ThrowsOffline cfg p m) :
    (p.step (appSystem cfg) m).Covered OfflineDue OnlineAsRider := by
  have hp' := (switches_recalled cfg).holds_step hp m
  apply hcovered.step offlineDue_commit_ne
  · -- A switch that has returned has taken its user offline.
    intro n i a hrun u _ hdue
    obtain ⟨x, hx, hset⟩ := hp'.thread hrun rfl u hdue.1
    exact nomatch (hdue.2 x hx).symm.trans hset
  · intro n i o b s hc u hexposed
    exact poolCovered_commit hp hcovered hc (honline n i o b s hc) hexposed
  · rintro n hthrow u ⟨⟨d, hd, rfl, hon⟩, hrider⟩ hdue
    exact (hthrows n hthrow d hd hon hdue).resolve_left hrider

private theorem poolCovered_run (hp : SwitchesRecalled cfg p)
    (hcovered : p.Covered OfflineDue OnlineAsRider) (ms : List AppMove)
    (hswitches : SwitchesOffline cfg p ms) :
    (p.run (appSystem cfg) ms).Covered OfflineDue OnlineAsRider := by
  induction ms generalizing p with
  | nil => exact hcovered
  | cons m ms ih =>
      obtain ⟨⟨honline, hthrows⟩, hrest⟩ := hswitches
      apply ih
      · exact (switches_recalled cfg).holds_step hp m
      · exact poolCovered_step hp hcovered m honline hthrows
      · exact hrest

/-- A call in flight that has to take somebody offline is a switch. -/
private theorem isSwitch_of_owes (hp : SwitchesRecalled cfg p) {n : Nat} {u : Id}
    (h : p.Owes OfflineDue n u) : ∃ i o k, p.running[n]? = some (i, .step o k) ∧
      i.isSwitch = true := by
  obtain ⟨⟨i, o, k, hrun⟩, ⟨x, hx, hleaves⟩, -⟩ := h
  refine ⟨i, o, k, hrun, ?_⟩
  rcases (hp.thread hrun).1.2 with hi | hnone
  · exact hi
  · exact nomatch (hnone x hx u).symm.trans hleaves

end Runs

/-- However mode switches, online toggles and disconnects overlap, and whatever
fails, everybody online is in driver mode whenever no switch is in flight,
provided that nobody is put online in rider mode behind the back of a switch and
no switch breaks off before it has taken its user offline. -/
theorem pool_in_driver_mode (cfg : Config) (start : OffDuty) (ms : List AppMove)
    (hswitches : SwitchesOffline cfg start.pool ms)
    (hended : NoSwitchInFlight (start.pool.run (appSystem cfg) ms)) :
    (start.pool.run (appSystem cfg) ms).world.shared.PoolInDriverMode := by
  have hp : SwitchesRecalled cfg start.pool := MemoryInvariant.holds_init trivial
  have hinit : start.pool.Covered OfflineDue OnlineAsRider := by
    rintro u ⟨⟨d, hd, -, hon⟩, -⟩
    exact nomatch (start.offline d hd).symm.trans hon
  have hcovered := poolCovered_run hp hinit ms hswitches
  have hrecalled := (switches_recalled cfg).holds_run hp ms
  intro d hd hon
  by_contra hrider
  obtain ⟨n, howes⟩ := hcovered d.userId ⟨⟨d, hd, rfl, hon⟩, hrider⟩
  obtain ⟨i, o, k, hrun, hi⟩ := isSwitch_of_owes hrecalled howes
  rcases hended _ (List.mem_of_getElem? hrun) with hdone | hnot
  · exact nomatch hdone
  · exact nomatch hnot.symm.trans hi

/-- A verified driver in rider mode. -/
def verifiedDriver : OffDuty where
  registry :=
    { users := ⟨[{ id := "driver" }], by decide⟩
      driverApplications := .empty
      driverDocuments := .empty
      files := fun _ => none
      ride :=
        { Backend.empty with
          tables :=
            { RideTables.empty with
              driverProfiles := ⟨[
                { id := "profile"
                  userId := "driver"
                  driverApplicationId := "application" }], by decide⟩ } } }
  rider := by decide
  offline := by decide

/-- They switch to driver mode and go online. -/
def goingOnline : List AppMove :=
  [.invoke (.onboarding (.setActiveProfile "driver" .driver)), .advance 0, .advance 0,
    .invoke (.updateStatus "driver" true), .advance 1, .advance 1, .advance 1, .advance 1,
    .advance 1, .advance 1]

/-- When they switch back, the cache is out of reach. -/
def brokenSwitch : List AppMove :=
  goingOnline ++ [.invoke (.onboarding (.setActiveProfile "driver" .rider)), .advance 2, .refuse 2]

/-- With nothing in flight they have left driver mode then, and are still in the matching
pool. -/
theorem not_poolInDriverMode_brokenSwitch :
    (∀ c ∈ (verifiedDriver.pool.run (appSystem .default) brokenSwitch).running,
      c.2.ended = true) ∧
      ¬ (verifiedDriver.pool.run
        (appSystem .default) brokenSwitch).world.shared.PoolInDriverMode := by
  decide +kernel

/-- They switch back with everything in reach. -/
theorem pool_in_driver_mode_verifiedDriver :
    (verifiedDriver.pool.run (appSystem .default)
      (goingOnline ++ [.invoke (.onboarding (.setActiveProfile "driver" .rider)), .advance 2,
        .advance 2, .advance 2, .advance 2, .advance 2])).world.shared.PoolInDriverMode := by
  apply pool_in_driver_mode
  · decide +kernel
  · decide +kernel

end Reedr
