import Reedr.Ride.Evolution
import Reedr.Ride.ExpiryQueue

/-!
# The grace period after a disconnect

Going offline adds the driver's clean-up job under a fixed id and removes
nothing first. A job that is still stored under that id, finished or not, keeps
the new one out, so whether the disconnect is covered is decided by that job.
-/

namespace Reedr
open Relational Interleaving

/-- A cached identity is the one of the user's profile. -/
def Backend.IdentitiesKnown (s : Backend) : Prop :=
  ∀ userId identity, s.driverIdentities userId = some identity →
    ∃ p ∈ s.tables.driverProfiles, p.userId = userId ∧ p.id = identity.id

/-- What every call finds in the queue and the cache, and leaves there. -/
structure Backend.Orderly (s : Backend) : Prop where
  labelled : s.jobs.Labelled
  identities : s.IdentitiesKnown

/-- Statements that keep queue and cache orderly whatever was read before. -/
def Stmt.Orderly : Stmt → Prop
  | .addJob data _ jobId => jobId = data.storedAs
  | .setIdentity _ identity => identity = none
  | _ => True

namespace Backend
variable {cfg : Config} {s s' : Backend} {o : Stmt} {b : o.Res}

/-- A value that was cached before, or is known, is known. -/
private theorem IdentitiesKnown.update {userId : Id} {identity : Option DriverIdentity}
    (hs : s.IdentitiesKnown) (hp : s.tables.driverProfiles.Persists DriverProfile.identity
      s'.tables.driverProfiles)
    (hc : s'.driverIdentities = Function.update s.driverIdentities userId identity)
    (hknown : ∀ v, identity = some v →
      ∃ p ∈ s.tables.driverProfiles, p.userId = userId ∧ p.id = v.id) :
    s'.IdentitiesKnown := by
  intro u v hv
  rw [hc, Function.update_apply] at hv
  have hold : ∃ p ∈ s.tables.driverProfiles, p.userId = u ∧ p.id = v.id := by
    split at hv
    · next hu => exact hu ▸ hknown v hv
    · exact hs u v hv
  obtain ⟨p, hpm, hpu, hpid⟩ := hold
  obtain ⟨p', hp', hpp⟩ := hp p hpm
  have hpp := DriverProfile.identity_eq.mp hpp
  exact ⟨p', hp', hpp.2.1.trans hpu, hpp.1.trans hpid⟩

private theorem IdentitiesKnown.keep (hs : s.IdentitiesKnown)
    (hp : s.tables.driverProfiles.Persists DriverProfile.identity s'.tables.driverProfiles)
    (hc : s'.driverIdentities = s.driverIdentities) : s'.IdentitiesKnown := by
  intro u v hv
  obtain ⟨p, hpm, hpu, hpid⟩ := hs u v (hc ▸ hv)
  obtain ⟨p', hp', hpp⟩ := hp p hpm
  have hpp := DriverProfile.identity_eq.mp hpp
  exact ⟨p', hp', hpp.2.1.trans hpu, hpp.1.trans hpid⟩

theorem Orderly.empty : Backend.empty.Orderly :=
  ⟨fun j hj => absurd hj (Table.not_mem_empty j), fun _ _ h => nomatch h⟩

theorem Orderly.exec (hs : s.Orderly) (h : (rideSystem cfg).exec o s = .ok (b, s'))
    (ho : o.Orderly) : s'.Orderly := by
  have hx : Backend.exec cfg o s = .ok (b, s') := h
  have hp := (RideTables.Grows.of_wrote (exec_wrote hx)).profiles
  cases o with
  | setIdentity userId identity =>
      cases hx
      refine ⟨hs.labelled, hs.identities.update hp rfl fun v hv => ?_⟩
      exact absurd (ho.symm.trans hv) (by simp)
  | evictIdentity userId =>
      cases hx
      exact ⟨hs.labelled, hs.identities.update hp rfl nofun⟩
  | addJob data delay jobId =>
      exact ⟨hs.labelled.exec h ho, hs.identities.keep hp ((frame h).identities rfl)⟩
  | _ => exact ⟨hs.labelled.exec h trivial, hs.identities.keep hp ((frame h).identities rfl)⟩

end Backend

section Calls
variable (cfg : Config) (n : Nat) (i : Invocation) {w : RideWorld}

theorem orderly_of_uses {α : Type} {c : RideCall α} (hc : c.Uses Stmt.Orderly)
    (h : w.shared.Orderly) :
    c.Ends (rideSystem cfg) n i (fun _ w' => w'.shared.Orderly) w :=
  Call.Ends.of_uses (K := fun w : RideWorld => w.shared.Orderly)
    (fun _ _ _ _ ho hK hx => hK.exec hx ho) hc h

/-- The identity of a user who has a profile is that profile's, cached or not. -/
theorem findIdentityByUserId_ends (userId : Id) (h : w.shared.Orderly) :
    (DriversService.findIdentityByUserId userId).Ends (rideSystem cfg) n i
      (fun r w' => w'.shared.Orderly ∧ w'.shared.jobs = w.shared.jobs ∧
        w'.shared.clock = w.shared.clock ∧ ∀ identity, r = .ok identity →
          ∀ p ∈ (tablesOf w).driverProfiles, p.userId = userId →
            identity.map DriverIdentity.id = some p.id) w := by
  refine Call.Ends.perform_bind (fun _ => ⟨h, rfl, rfl, nofun⟩) ?_ fun _ hx => nomatch hx
  rintro cached s ⟨⟩
  cases hcached : w.shared.driverIdentities userId with
  | some v =>
      refine ⟨h, rfl, rfl, ?_⟩
      rintro identity ⟨⟩ p hp hu
      obtain ⟨q, hq, hqu, hqid⟩ := h.identities userId v hcached
      rw [DriverProfile.eq_of_userId hp hq (hu.trans hqu.symm)]
      exact congrArg some hqid.symm
  | none =>
      refine Call.Ends.perform_bind (fun _ => ⟨h, rfl, rfl, nofun⟩) ?_ fun _ hx => nomatch hx
      rintro value s ⟨⟩
      refine Call.Ends.perform_bind (fun _ => ⟨h, rfl, rfl, nofun⟩) ?_ fun _ hx => nomatch hx
      rintro u s ⟨⟩
      refine ⟨⟨h.labelled, h.identities.update (.refl _) rfl fun v hv => ?_⟩, rfl, rfl, ?_⟩
      · obtain ⟨p, hpe, rfl⟩ := Option.map_eq_some_iff.mp hv
        obtain ⟨hp, hu⟩ := RideTables.findDriverProfileByUser_some hpe
        exact ⟨p, hp, hu, rfl⟩
      · rintro identity ⟨⟩ p hp rfl
        have hfind := RideTables.findDriverProfileByUser_of_mem hp
        simp only [World.commit_shared, hfind, Option.map_some]

/-- Going offline adds the job of the user's profile to the queue, due after the
grace period, and does nothing else to the queue. -/
theorem goOffline_ends (userId : Id) (h : w.shared.Orderly) :
    (DriversService.goOffline cfg userId).Ends (rideSystem cfg) n i
      (fun r w' => w'.shared.Orderly ∧ (r = .ok () →
        ∀ p ∈ (tablesOf w).driverProfiles, p.userId = userId →
          w'.shared.jobs = w.shared.jobs.add
            { jobId := OffersService.driverJobId p.id
              data := .expireDriverPendingOffers p.id
              dueAt := w.shared.clock + cfg.offerExpiryMs })) w := by
  refine Call.Ends.bind ((findIdentityByUserId_ends cfg n i userId h).mono ?_)
  rintro (e | identity) w₁ ⟨h₁, hjobs, hclock, hidentity⟩
  · exact ⟨h₁, nofun⟩
  · have hidentity := hidentity identity rfl
    cases identity with
    | none => exact ⟨h₁, fun _ p hp hu => nomatch hidentity p hp hu⟩
    | some v =>
        refine Call.Ends.perform_bind (fun _ => ⟨h₁, nofun⟩) (fun updated s₂ hx₂ => ?_)
          fun _ _ => ⟨h₁, nofun⟩
        have h₂ : s₂.Orderly := h₁.exec hx₂ trivial
        refine Call.Ends.perform_bind nofun (fun _ s₃ hx₃ => ?_) fun _ hx => nomatch hx
        have h₃ : s₃.Orderly := h₂.exec hx₃ trivial
        refine Call.Ends.perform (fun _ => ⟨h₃, nofun⟩) (fun _ s₄ hx₄ => ?_) fun _ hx => nomatch hx
        refine ⟨h₃.exec hx₄ rfl, fun _ p hp hu => ?_⟩
        have hjobs₃ : s₃.jobs = w.shared.jobs :=
          (((Backend.frame hx₃).jobs rfl).trans ((Backend.frame hx₂).jobs rfl)).trans hjobs
        have hclock₃ : s₃.clock = w.shared.clock :=
          (((Backend.frame hx₃).clock rfl).trans ((Backend.frame hx₂).clock rfl)).trans hclock
        rw [← Option.some.inj (hidentity p hp hu), ← hjobs₃, ← hclock₃]
        cases hx₄
        rfl

/-- A call that starts from the identity keeps the order if the rest does. -/
private theorem identity_bind {α : Type} {f : Option DriverIdentity → RideCall α} (userId : Id)
    (hf : ∀ identity, (f identity).Uses Stmt.Orderly) (h : w.shared.Orderly) :
    (DriversService.findIdentityByUserId userId >>= f).Ends (rideSystem cfg) n i
      (fun _ w' => w'.shared.Orderly) w := by
  refine Call.Ends.bind ((findIdentityByUserId_ends cfg n i userId h).mono ?_)
  rintro (e | identity) w₁ ⟨h₁, -⟩
  · exact h₁
  · exact orderly_of_uses cfg n i (hf identity) h₁

private theorem process_orderly (job : OfferExpiryJob) :
    (OfferExpiryProcessor.process job).Uses Stmt.Orderly :=
  OfferExpiryProcessor.process_uses (fun _ => trivial) (fun _ => trivial) (fun _ _ _ => trivial)
    (fun _ => trivial) (fun _ => trivial) job

private theorem onLocationUpdate_orderly (userId : Id) (lat lng : Coord) (h : w.shared.Orderly) :
    (RealtimeGateway.onLocationUpdate userId lat lng).Ends (rideSystem cfg) n i
      (fun _ w' => w'.shared.Orderly) w := by
  refine Call.Ends.perform_bind nofun (fun allowed s hx => ?_) fun _ hx => nomatch hx
  have h : s.Orderly := h.exec hx trivial
  cases allowed with
  | false => exact h
  | true =>
      simp only [DriversService.updateLocation, bind_assoc, pure_bind]
      refine Call.Ends.recover (Call.Ends.mono ?_ (identity_bind cfg n i userId (fun _ => ?_) h))
      · rintro (e | _) w' h <;> exact h
      · apply Call.Uses.bind (Call.Uses.required _ _)
        intro _
        apply Call.Uses.bind (Call.Uses.perform trivial)
        intro _
        apply Call.Uses.bind (Call.Uses.perform trivial)
        intro _
        apply Call.Uses.bind (Call.Uses.perform trivial)
        intro _
        apply Call.Uses.bind (Call.Uses.perform trivial)
        intro rider
        cases rider with
        | none => trivial
        | some riderId => exact Call.Uses.perform trivial

/-- Every call keeps queue and cache orderly, however it ends. -/
theorem orderly_call (h : w.shared.Orderly) :
    (i.code cfg).Ends (rideSystem cfg) n i (fun _ w' => w'.shared.Orderly) w := by
  cases i with
  | create riderId dto uuid =>
      exact Call.Ends.void (orderly_of_uses cfg n _ (RideRequestsService.create_uses
        (fun _ => trivial) (fun _ _ => trivial) (fun _ _ => trivial) riderId dto uuid) h)
  | cancel id requester reason =>
      exact Call.Ends.void (orderly_of_uses cfg n _ (RideRequestsService.cancel_uses
        (fun _ => trivial) trivial (fun _ => trivial) (fun _ _ => trivial) id requester reason) h)
  | submitOffer driverUserId rideRequestId offeredFare uuid =>
      exact Call.Ends.void (orderly_of_uses cfg n _ (OffersService.submitOffer_uses
        (fun _ => trivial) (fun _ => trivial) (fun _ _ _ _ => trivial) (fun _ => trivial)
        (fun _ => trivial) (fun _ => rfl) (fun _ _ => trivial) driverUserId rideRequestId
        offeredFare uuid) h)
  | acceptOffer riderId offerId uuid =>
      exact Call.Ends.void (orderly_of_uses cfg n _ (OffersService.acceptOffer_uses
        (fun _ => trivial) (fun _ _ => trivial) (fun _ => trivial) (fun _ => trivial)
        (fun _ => trivial) (fun _ _ _ _ => trivial) riderId offerId uuid) h)
  | start tripId driverUserId =>
      exact Call.Ends.void (orderly_of_uses cfg n _ (TripsService.start_uses (fun _ => trivial)
        trivial (fun _ => trivial) (fun _ => trivial) tripId driverUserId) h)
  | complete tripId driverUserId =>
      exact Call.Ends.void (orderly_of_uses cfg n _ (TripsService.complete_uses (fun _ => trivial)
        trivial (fun _ => trivial) (fun _ => trivial) tripId driverUserId) h)
  | process job => exact orderly_of_uses cfg n _ (process_orderly job) h
  | runJob jobId =>
      exact orderly_of_uses cfg n _ (OfferExpiryProcessor.runJob_uses (fun _ => trivial)
        (fun _ => trivial) (fun _ => trivial) process_orderly jobId) h
  | setOnlineStatus userId isOnline =>
      exact Call.Ends.void (identity_bind cfg n _ userId (fun _ =>
        Call.Uses.bind (Call.Uses.required _ _) fun _ =>
          Call.Uses.bind (Call.Uses.perform trivial) fun _ =>
            Call.Uses.bind (Call.Uses.perform trivial) fun _ => trivial) h)
  | goOffline userId => exact (goOffline_ends cfg n _ userId h).mono fun _ _ hQ => hQ.1
  | locationUpdate userId lat lng => exact onLocationUpdate_orderly cfg n _ userId lat lng h
  | verifyDriver userId driverApplicationId uuid =>
      exact orderly_of_uses cfg n _ (Call.Uses.perform trivial) h
  | evictIdentity userId => exact orderly_of_uses cfg n _ (Call.Uses.perform trivial) h
  | elapse duration => exact orderly_of_uses cfg n _ (Call.Uses.perform trivial) h

end Calls

/-- An unfinished clean-up job of the driver is stored, due no earlier than the deadline. -/
def JobQueue.Covers (q : JobQueue) (driverProfileId : Id) (deadline : Millis) : Prop :=
  ∃ j ∈ q, j.data = .expireDriverPendingOffers driverProfileId ∧ j.unfinished ∧ deadline ≤ j.dueAt

instance (q : JobQueue) (driverProfileId : Id) (deadline : Millis) :
    Decidable (q.Covers driverProfileId deadline) :=
  inferInstanceAs (Decidable (∃ j ∈ q, _ ∧ _ ∧ _))

/-- No job is stored under the driver's id, or an unfinished one that is due no
earlier than the deadline. -/
def JobQueue.Admits (q : JobQueue) (driverProfileId : Id) (deadline : Millis) : Prop :=
  ∀ j ∈ q, j.jobId = OffersService.driverJobId driverProfileId →
    j.unfinished ∧ deadline ≤ j.dueAt

instance (q : JobQueue) (driverProfileId : Id) (deadline : Millis) :
    Decidable (q.Admits driverProfileId deadline) :=
  inferInstanceAs (Decidable (∀ j ∈ q, _ → _ ∧ _))

/-- Adding the driver's job covers the disconnect exactly when the queue admits it. -/
theorem JobQueue.Labelled.covers_add_iff {q : JobQueue} (hq : q.Labelled) (driverProfileId : Id)
    (deadline : Millis) :
    (JobQueue.add q
      { jobId := OffersService.driverJobId driverProfileId
        data := .expireDriverPendingOffers driverProfileId
        dueAt := deadline }).Covers driverProfileId deadline ↔
      q.Admits driverProfileId deadline := by
  have hid {j : Job} (hj : j ∈ q) : j.jobId = OffersService.driverJobId driverProfileId ↔
      j.data = .expireDriverPendingOffers driverProfileId :=
    hq.jobId_iff hj (.expireDriverPendingOffers driverProfileId)
  constructor
  · rintro ⟨j, hj, hdata, hunfinished, hdue⟩ k hk hkid
    rcases mem_add.mp hj with hj | ⟨-, hfree⟩
    · obtain rfl := hq.eq_of_data hj hk (hdata.trans ((hid hk).mp hkid).symm)
      exact ⟨hunfinished, hdue⟩
    · exact absurd hkid (hfree k hk)
  · intro h
    by_cases hex : ∃ k ∈ q, k.jobId = OffersService.driverJobId driverProfileId
    · obtain ⟨k, hk, hkid⟩ := hex
      exact ⟨k, mem_add.mpr (Or.inl hk), (hid hk).mp hkid, h k hk hkid⟩
    · exact ⟨_, mem_add.mpr (Or.inr ⟨rfl, fun k hk hkid => hex ⟨k, hk, hkid⟩⟩), rfl,
        Or.inl rfl, Nat.le_refl _⟩

/-- In every state reached by whole calls, a successful disconnect of a driver
is covered for the full grace period if and only if the queue admits its job. -/
theorem disconnect_covered_iff (cfg : Config) (calls : List (Invocation × List Bool))
    (refusals : List Bool) {p : DriverProfile}
    (hp : p ∈ (tablesOf (ridePool.serveAll (rideSystem cfg) calls).world).driverProfiles)
    (hok : (ridePool.serveAll (rideSystem cfg) calls).reply (rideSystem cfg)
      (.goOffline p.userId, refusals) = .ok ()) :
    ((ridePool.serveAll (rideSystem cfg) calls).serve (rideSystem cfg)
        (.goOffline p.userId, refusals)).world.shared.jobs.Covers p.id
          ((ridePool.serveAll (rideSystem cfg) calls).world.shared.clock + cfg.offerExpiryMs) ↔
      (ridePool.serveAll (rideSystem cfg) calls).world.shared.jobs.Admits p.id
        ((ridePool.serveAll (rideSystem cfg) calls).world.shared.clock + cfg.offerExpiryMs) := by
  have horderly : (ridePool.serveAll (rideSystem cfg) calls).world.shared.Orderly :=
    Pool.serveAll_invariant (K := fun w : RideWorld => w.shared.Orderly)
      (fun _ n i hw => orderly_call cfg n i hw) Backend.Orderly.empty calls
  have hjobs := ((goOffline_ends cfg _ (.goOffline p.userId) p.userId horderly).eval refusals).2
    hok p hp rfl
  rw [← horderly.labelled.covers_add_iff, ← hjobs]
  rfl

/-- A driver disconnects, and a minute later the clean-up job has run. -/
def firstDisconnect : List (Invocation × List Bool) :=
  [(.verifyDriver "driver" "application" "profile", []), (.goOffline "driver", []),
    (.elapse 60000, []), (.runJob "driver-disconnect-profile", [])]

/-- The driver as approved, before any disconnect. -/
theorem disconnect_covered_first :
    ((ridePool.serveAll (rideSystem .default) (firstDisconnect.take 1)).serve
      (rideSystem .default) (.goOffline "driver", [])).world.shared.jobs.Covers "profile" 60000 :=
  (disconnect_covered_iff .default (firstDisconnect.take 1) [] (p :=
    { id := "profile", userId := "driver", driverApplicationId := "application" })
    (by decide) (by decide)).mpr (by decide)

/-- The finished job keeps the second disconnect, successful as it is, uncovered. -/
theorem not_covered_secondDisconnect :
    (ridePool.serveAll (rideSystem .default)
      (firstDisconnect ++ [(.setOnlineStatus "driver" true, [])])).reply (rideSystem .default)
        (.goOffline "driver", []) = .ok () ∧
      ¬ ((ridePool.serveAll (rideSystem .default)
        (firstDisconnect ++ [(.setOnlineStatus "driver" true, [])])).serve (rideSystem .default)
          (.goOffline "driver", [])).world.shared.jobs.Covers "profile" 120000 := by
  decide

end Reedr
