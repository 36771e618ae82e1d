import Reedr.Ride.ExpiryTiming

/-!
# The deadline of a pending offer

Every submission removes the offer's job, whatever its state, and adds a new
one, so a pending offer is armed for its last submission. The calls and the job
executions are followed here one by one; between them rows and jobs agree.
-/

namespace Reedr
open Relational Interleaving

section Calls
variable {cfg : Config} {n : Nat} {i : Invocation} {w : RideWorld}

/-- What the removal of an expiry job leaves behind. -/
structure Unscheduled (cfg : Config) (atWork : Option OfferExpiryJob) (offerId : Id)
    (w w' : RideWorld) : Prop where
  timed : TimedBut cfg atWork w'
  idle : ∀ j ∈ w'.shared.jobs, j.state ≠ .active
  tables : tablesOf w' = tablesOf w
  clock : w'.shared.clock = w.shared.clock
  submissions : ∀ o, lastSubmission w'.trace o = lastSubmission w.trace o
  free : ∀ j ∈ w'.shared.jobs, j.jobId ≠ OffersService.offerJobId offerId

/-- The id being free, the new job is stored, and the work on the offer ends. -/
theorem Unscheduled.arm {w₀ : RideWorld} {s : Backend} {offer : RideOffer}
    (hu : Unscheduled cfg (some (.expireOffer offer.id)) offer.id w₀ w)
    (hmem : offer ∈ (tablesOf w).rideOffers)
    (hsubmitted : lastSubmission w.trace offer = some w.shared.clock)
    (hx : (rideSystem cfg).exec (.addJob (.expireOffer offer.id) cfg.offerExpiryMs
      (OffersService.offerJobId offer.id)) w.shared = .ok ((), s)) :
    Timed cfg (w.commit n i (.addJob (.expireOffer offer.id) cfg.offerExpiryMs
      (OffersService.offerJobId offer.id)) s) ∧ offer ∈ s.tables.rideOffers ∧
    ∃ j ∈ s.jobs, j.data = .expireOffer offer.id ∧ j.state = .delayed ∧
      j.dueAt = w.shared.clock + cfg.offerExpiryMs := by
  have h := hu.timed.addJob (n := n) (i := i) hx
  cases hx
  let job : Job :=
    { jobId := OffersService.offerJobId offer.id, data := .expireOffer offer.id
      dueAt := w.shared.clock + cfg.offerExpiryMs }
  have hnew : job ∈ w.shared.jobs.add job := JobQueue.mem_add.mpr (Or.inr ⟨rfl, hu.free⟩)
  refine ⟨h.settle (fun j hj => ?_) fun x hxm hid => ?_, hmem, job, hnew, rfl, rfl, rfl⟩
  · rcases JobQueue.mem_add.mp hj with hj | ⟨rfl, -⟩
    · exact hu.idle j hj
    · exact nofun
  · obtain rfl := RideOffer.eq_of_id hxm hmem hid
    exact ⟨job, hnew, rfl, rfl, w.shared.clock,
      (lastSubmission_unsubmitted rfl x).trans hsubmitted, rfl⟩

theorem cancelScheduledExpiry_ends {d : Option OfferExpiryJob} {offerId : Id}
    (h : TimedBut cfg d w) (hidle : ∀ j ∈ w.shared.jobs, j.state ≠ .active)
    (hfree : ∀ x ∈ (tablesOf w).rideOffers, x.status = .pending → x.id = offerId →
      some (.expireOffer offerId) = d) :
    (OffersService.cancelScheduledExpiry offerId).Ends (rideSystem cfg).reliable n i
      (fun r w' => r = .ok () ∧ Unscheduled cfg d offerId w w') w := by
  refine Call.Ends.reliable_bind ?_ fun _ hx => nomatch hx
  intro job s hx
  have h₁ : TimedBut cfg d (w.commit n i (.getJob (OffersService.offerJobId offerId)) s) :=
    h.rows hx rfl rfl trivial
  cases hx
  cases hget : w.shared.jobs.getJob (OffersService.offerJobId offerId) with
  | none =>
      exact ⟨rfl, h₁, hidle, rfl, rfl, lastSubmission_unsubmitted rfl,
        JobQueue.getJob_none hget⟩
  | some job =>
      obtain ⟨-, hid⟩ := JobQueue.getJob_some hget
      dsimp only
      rw [hid]
      refine Call.Ends.recover (Call.Ends.reliable (fun _ s hx => ?_) fun e hx => ?_)
      · obtain ⟨hremove, htables, hclock⟩ := Backend.exec_removeJob hx
        have hmem {x : Job} := JobQueue.mem_remove hremove (x := x)
        refine ⟨rfl, ?_, fun j hj => hidle j (hmem.mp hj).1, htables, hclock, fun o => ?_,
          fun j hj => (hmem.mp hj).2⟩
        · apply h₁.removeJob (.expireOffer offerId) hx
          intro x hxm hst hdata
          cases hdata
          exact hfree x hxm hst rfl
        · rw [lastSubmission_unsubmitted, lastSubmission_unsubmitted] <;> rfl
      · obtain ⟨q, hq⟩ := JobQueue.remove_isSome hidle (OffersService.offerJobId offerId)
        have hx : Backend.exec cfg (.removeJob (OffersService.offerJobId offerId)) w.shared =
          .error e := hx
        simp only [Backend.exec, hq] at hx
        cases hx

/-- A call of such statements keeps the agreement. -/
theorem timed_of_uses {α : Type} {c : RideCall α} (hc : c.Uses Stmt.KeepsTime)
    (h : Timed cfg w) :
    c.Ends (rideSystem cfg).reliable n i (fun _ w' => Timed cfg w') w :=
  Call.Ends.reliable_of_uses (fun _ _ _ _ ho hK hx => hK.keeps hx ho) hc h

/-- The driver's offer on the request has a job that is due a full grace period
after the submission. -/
def Rearmed (cfg : Config) (driverUserId rideRequestId : Id) (w w' : RideWorld) : Prop :=
  ∃ p ∈ (tablesOf w).driverProfiles, p.userId = driverUserId ∧
    ∃ o ∈ (tablesOf w').rideOffers, o.isOn rideRequestId p.id ∧
      ∃ j ∈ w'.shared.jobs, j.data = .expireOffer o.id ∧ j.unfinished ∧
        j.dueAt = w.shared.clock + cfg.offerExpiryMs

theorem submitOffer_ends (h : Timed cfg w) (driverUserId rideRequestId : Id) (offeredFare : Fare)
    (uuid : Id) :
    (OffersService.submitOffer cfg driverUserId rideRequestId offeredFare uuid).Ends
      (rideSystem cfg).reliable n i
      (fun r w' => Timed cfg w' ∧ ∀ offer, r = .ok offer →
        Rearmed cfg driverUserId rideRequestId w w') w := by
  simp only [OffersService.submitOffer, OffersService.scheduleExpiry, bind_assoc]
  refine Call.Ends.reliable_bind (fun b s hx => ?_) fun _ hx => by cases hx
  have h := h.keeps (n := n) (i := i) hx trivial
  cases hx
  refine Call.Ends.required_bind (fun p hpe => ?_) fun _ => ⟨h, by simp⟩
  obtain ⟨hp, hpu⟩ := RideTables.findDriverProfileByUser_some hpe
  refine Call.Ends.reliable_bind (fun b s hx => ?_) fun _ hx => by cases hx
  have h := h.keeps (n := n) (i := i) hx trivial
  cases hx
  refine Call.Ends.required_bind (fun r _ => ?_) fun _ => ⟨h, by simp⟩
  refine Call.Ends.ensure_bind (fun _ => ?_) fun _ => ⟨h, by simp⟩
  refine Call.Ends.reliable_bind (fun offer s₁ hx₁ => ?_) fun _ _ => ⟨h, by simp⟩
  have h₁ := h.upsertOffer (n := n) (i := i) ⟨p, hp, rfl⟩ hx₁
  have heffect := RideTables.upsertOffer_effect (Backend.onTables_ok
    (fun db => db.upsertOffer rideRequestId p.id offeredFare uuid) hx₁).1
  have hidle : ∀ j ∈ s₁.jobs, j.state ≠ .active := by
    intro j hj hst
    cases h.idle j ((Backend.frame hx₁).jobs rfl ▸ hj) hst
  refine Call.Ends.bind ((cancelScheduledExpiry_ends h₁ hidle fun _ _ _ _ => rfl).mono ?_)
  rintro _ w₂ ⟨rfl, hu⟩
  have hmem : offer ∈ (tablesOf w₂).rideOffers := by
    rw [hu.tables]
    exact heffect.result_mem
  have hclock : w₂.shared.clock = w.shared.clock :=
    hu.clock.trans ((Backend.frame hx₁).clock rfl)
  have hsubmitted : lastSubmission w₂.trace offer = some w₂.shared.clock := by
    rw [hu.submissions, lastSubmission_commit, if_pos, hclock]
    · rfl
    · simpa [RideOffer.submittedBy, RideOffer.isOn] using heffect.result_on
  refine Call.Ends.reliable_bind (fun _ s₃ hx₃ => ?_) fun _ hx => by cases hx
  obtain ⟨h₃, hmem₃, j, hj, hdata, hstate, hdue⟩ :=
    hu.arm (n := n) (i := i) hmem hsubmitted hx₃
  refine Call.Ends.reliable_bind (fun _ s₄ hx₄ => ?_) fun _ hx => by cases hx
  have h₄ := h₃.keeps (n := n) (i := i) hx₄ trivial
  cases hx₄
  refine ⟨h₄, fun _ hr => ?_⟩
  exact ⟨p, hp, hpu, offer, hmem₃, heffect.result_on, j, hj, hdata, Or.inl hstate,
    hclock ▸ hdue⟩

/-- None of the offers that an acceptance takes off the queue is pending after it. -/
theorem Acceptance.Effect.settled {a : Acceptance} {db db' : RideTables} {t : Trip}
    (h : a.Effect db t db') : ∀ x ∈ db'.rideOffers, x.status = .pending →
      x.id ∉ a.offerId :: (db.findOtherPendingOffers a.rideRequestId a.offerId).map
        fun o => o.offer.id := by
  intro x hx hst hid
  obtain ⟨y, hy, rfl⟩ := (h.offers x).mp hx
  rw [(RideOffer.identity_eq.mp (a.onOffer_identity y)).1] at hid
  unfold Acceptance.onOffer at hst
  split_ifs at hst with hne hsel
  obtain hid := (List.mem_cons.mp hid).resolve_left hne
  obtain ⟨q, hq, hqid⟩ := List.mem_map.mp hid
  obtain ⟨hqm, hqr, hqst⟩ := RideTables.mem_findOtherPendingOffers hq
  obtain rfl := RideOffer.eq_of_id hqm hy hqid
  exact hsel ⟨hqr, hqst⟩

theorem acceptOffer_ends (h : Timed cfg w) (riderId offerId uuid : Id) :
    (OffersService.acceptOffer riderId offerId uuid).Ends (rideSystem cfg).reliable n i
      (fun _ w' => Timed cfg w') w := by
  refine Call.Ends.reliable_bind (fun b s hx => ?_) fun _ hx => nomatch hx
  have h := h.keeps (n := n) (i := i) hx trivial
  cases hx
  refine Call.Ends.required_bind (fun offer _ => ?_) fun _ => h
  refine Call.Ends.ensure_bind (fun _ => ?_) fun _ => h
  refine Call.Ends.ensure_bind (fun _ => ?_) fun _ => h
  refine Call.Ends.reliable_bind (fun others s hx => ?_) fun _ hx => nomatch hx
  have h := h.keeps (n := n) (i := i) hx trivial
  cases hx
  refine Call.Ends.reliable_bind (fun trip s hx => ?_) fun _ _ => h
  have h := h.keeps (n := n) (i := i) hx trivial
  have hsettled := (RideTables.acceptBatch_effect
    (Backend.onTables_ok (fun db => db.acceptBatch _) hx).1).settled
  -- none of these offers being pending, their jobs may go one after another
  refine Call.Ends.bind ((Call.Ends.all (K := fun w' => Timed cfg w' ∧
    ∀ x ∈ (tablesOf w').rideOffers, x.status = .pending → x.id ∉ _) ?_ ⟨h, hsettled⟩).mono ?_)
  · rintro id hid w₁ ⟨h₁, hpending⟩
    have hidle : ∀ j ∈ w₁.shared.jobs, j.state ≠ .active := fun j hj hst =>
      nomatch h₁.idle j hj hst
    refine (cancelScheduledExpiry_ends h₁ hidle fun x hx hst hxid =>
      absurd (hxid ▸ hid) (hpending x hx hst)).mono ?_
    rintro _ w₂ ⟨-, hu⟩
    exact ⟨hu.timed, hu.tables ▸ hpending⟩
  · rintro (e | _) w₁ ⟨h₁, -⟩
    · exact h₁
    · refine Call.Ends.reliable_bind (fun _ s hx => ?_) fun _ hx => nomatch hx
      exact h₁.keeps hx trivial

theorem expireIfStillPending_ends {offerId : Id}
    (h : TimedBut cfg (some (.expireOffer offerId)) w)
    (hdue : ∀ x ∈ (tablesOf w).rideOffers, x.status = .pending → x.id = offerId →
      Overdue cfg w x) :
    (OffersService.expireIfStillPending offerId).Ends (rideSystem cfg).reliable n i
      (fun r w' => (∃ result, r = .ok result) ∧
        TimedBut cfg (some (.expireOffer offerId)) w' ∧
        ∀ x ∈ (tablesOf w').rideOffers, x.status = .pending → x.id ≠ offerId) w := by
  refine Call.Ends.reliable_bind (fun b s hx => ?_) fun _ hx => nomatch hx
  have h₁ := h.keeps (n := n) (i := i) hx trivial
  cases hx
  cases hfind : (tablesOf w).findOffer offerId with
  | none =>
      exact ⟨⟨_, rfl⟩, h₁, fun x hxm _ => RideTables.findOffer_none h.driver hfind x hxm⟩
  | some offer =>
      obtain ⟨hoffer, hid, -⟩ := RideTables.findOffer_some hfind
      dsimp only
      split
      · next hpending =>
          refine Call.Ends.reliable_bind (fun _ s hx => ?_) fun e hx => ?_
          · refine ⟨⟨_, rfl⟩, h₁.rows hx rfl rfl fun x hxm hxid => ?_, fun x hxm hst hxid => ?_⟩
            · obtain rfl := RideOffer.eq_of_id hxm hoffer (hxid.trans hid.symm)
              obtain ⟨t, ht, hle⟩ := hdue _ hxm hpending hxid
              exact ⟨t, (lastSubmission_unsubmitted rfl _).trans ht, hle⟩
            · have heffect := RideTables.expireOffer_effect
                (Backend.onTables_ok (fun db => db.expireOffer offerId) hx).1
              obtain ⟨y, -, rfl⟩ := (heffect.offers x).mp hxm
              rw [expireOfferRow] at hst hxid
              split_ifs at hst hxid with hy
              exact hy hxid
          · obtain ⟨r, db, hok⟩ := RideTables.expireOffer_isOk hoffer hid
            have hx : w.shared.onTables (fun db => db.expireOffer offerId) = .error e := hx
            simp [Backend.onTables, hok] at hx
      · next hpending =>
          refine ⟨⟨_, rfl⟩, h₁, fun x hxm hst hxid => hpending ?_⟩
          obtain rfl := RideOffer.eq_of_id hxm hoffer (hxid.trans hid.symm)
          exact hst

/-- The execution of a due job succeeds and leaves its offer expired. -/
theorem process_ends {job : OfferExpiryJob} (h : TimedBut cfg (some job) w)
    (hdue : ∀ x ∈ (tablesOf w).rideOffers, x.status = .pending → job = .expireOffer x.id →
      Overdue cfg w x) :
    (OfferExpiryProcessor.process job).Ends (rideSystem cfg).reliable n i
      (fun r w' => r = .ok () ∧ TimedBut cfg (some job) w' ∧
        ∀ x ∈ (tablesOf w').rideOffers, x.status = .pending → job ≠ .expireOffer x.id) w := by
  cases job with
  | expireOffer offerId =>
      refine Call.Ends.bind ((expireIfStillPending_ends h fun x hxm hst hid =>
        hdue x hxm hst (congrArg _ hid.symm)).mono ?_)
      rintro _ w₁ ⟨⟨result, rfl⟩, h₁, hdone⟩
      have hdone : ∀ x ∈ (tablesOf w₁).rideOffers, x.status = .pending →
          OfferExpiryJob.expireOffer offerId ≠ .expireOffer x.id :=
        fun x hxm hst hc => hdone x hxm hst (OfferExpiryJob.expireOffer.inj hc).symm
      cases result with
      | none => exact ⟨rfl, h₁, hdone⟩
      | some result =>
          refine Call.Ends.reliable (fun _ s hx => ?_) fun _ hx => nomatch hx
          have h₂ := h₁.keeps (n := n) (i := i) hx trivial
          cases hx
          exact ⟨rfl, h₂, hdone⟩
  | expireDriverPendingOffers driverProfileId =>
      refine Call.Ends.reliable_bind (fun b s hx => ?_) fun _ hx => nomatch hx
      have h := h.keeps (n := n) (i := i) hx trivial
      cases b with
      | none => exact ⟨rfl, h, fun _ _ _ => nofun⟩
      | some driver =>
          dsimp only
          split
          · exact ⟨rfl, h, fun _ _ _ => nofun⟩
          · refine Call.Ends.reliable (fun _ s hx => ?_) fun e hx => ?_
            · exact ⟨rfl, h.keeps hx trivial, fun _ _ _ => nofun⟩
            · obtain ⟨db, hok⟩ := RideTables.expireDriverOffers_isOk s.tables driverProfileId
              have hx : s.onTables (fun db => db.expireDriverOffers driverProfileId) =
                  .error e := hx
              simp [Backend.onTables, hok] at hx

theorem runJob_ends (h : Timed cfg w) (jobId : String) :
    (OfferExpiryProcessor.runJob jobId).Ends (rideSystem cfg).reliable n i
      (fun _ w' => Timed cfg w') w := by
  refine Call.Ends.reliable_bind (fun job s hx => ?_) fun e hx => ?_
  · cases job with
    | none => exact h.takeNone hx
    | some job =>
        obtain ⟨hjob, hid, -⟩ := JobQueue.due?_some (Backend.exec_takeJob hx).1
        obtain rfl : jobId = job.data.storedAs := hid.symm.trans (h.labelled job hjob)
        refine Call.Ends.recover (Call.Ends.bind
          ((process_ends (h.takeJob hx) (h.overdue hx)).mono ?_))
        rintro _ w₁ ⟨rfl, h₁, hdone⟩
        refine Call.Ends.reliable (fun _ s hx => ?_) fun _ hx => nomatch hx
        exact h₁.completeJob hx hdone
  · have hx : Backend.exec cfg (.takeJob jobId) w.shared = .error e := hx
    simp only [Backend.exec] at hx
    split at hx <;> cases hx

/-- Jobs are executed when the queue hands them out, not by hand. -/
def Invocation.viaQueue : Invocation → Bool
  | .process _ => false
  | _ => true

private theorem findIdentityByUserId_keepsTime (userId : Id) :
    (DriversService.findIdentityByUserId userId).Uses Stmt.KeepsTime :=
  DriversService.findIdentityByUserId_uses (fun _ => trivial) (fun _ => trivial)
    (fun _ _ => trivial) userId

/-- Every whole call and every execution of a due job leaves rows and jobs in agreement. -/
theorem timed_call (hi : i.viaQueue = true) (h : Timed cfg w) :
    (i.code cfg).Ends (rideSystem cfg).reliable n i (fun _ w' => Timed cfg w') w := by
  cases i with
  | create riderId dto uuid =>
      exact Call.Ends.void (timed_of_uses (RideRequestsService.create_uses
        (fun _ => trivial) (fun _ _ => trivial) (fun _ _ => trivial) riderId dto uuid) h)
  | cancel id requester reason =>
      exact Call.Ends.void (timed_of_uses (RideRequestsService.cancel_uses
        (fun _ => trivial) trivial (fun _ => trivial) (fun _ _ => trivial) id requester reason) h)
  | submitOffer driverUserId rideRequestId offeredFare uuid =>
      exact Call.Ends.void ((submitOffer_ends h driverUserId rideRequestId offeredFare uuid).mono
        fun _ _ hQ => hQ.1)
  | acceptOffer riderId offerId uuid =>
      exact Call.Ends.void (acceptOffer_ends h riderId offerId uuid)
  | start tripId driverUserId =>
      exact Call.Ends.void (timed_of_uses (TripsService.start_uses (fun _ => trivial)
        trivial (fun _ => trivial) (fun _ => trivial) tripId driverUserId) h)
  | complete tripId driverUserId =>
      exact Call.Ends.void (timed_of_uses (TripsService.complete_uses (fun _ => trivial)
        trivial (fun _ => trivial) (fun _ => trivial) tripId driverUserId) h)
  | process job => cases hi
  | runJob jobId => exact runJob_ends h jobId
  | setOnlineStatus userId isOnline =>
      exact Call.Ends.void (timed_of_uses (DriversService.setOnlineStatus_uses
        findIdentityByUserId_keepsTime (fun _ _ => trivial) (fun _ _ _ _ => trivial)
        userId isOnline) h)
  | goOffline userId =>
      exact timed_of_uses (DriversService.goOffline_uses findIdentityByUserId_keepsTime
        (fun _ => trivial) (fun _ _ _ _ => trivial) (fun _ => rfl) userId) h
  | locationUpdate userId lat lng =>
      exact timed_of_uses (RealtimeGateway.onLocationUpdate_uses (fun _ => trivial)
        (DriversService.updateLocation_uses findIdentityByUserId_keepsTime trivial
          (fun _ => trivial) fun _ _ _ => trivial)
        (fun _ => trivial) fun _ _ => trivial) h
  | verifyDriver userId driverApplicationId uuid =>
      exact timed_of_uses (Call.Uses.perform trivial) h
  | evictIdentity userId => exact timed_of_uses (Call.Uses.perform trivial) h
  | elapse duration => exact timed_of_uses (Call.Uses.perform trivial) h

end Calls

/-- The pool after whole calls and executions of due jobs, one at a time, with
everything outside the process in reach. -/
def servedInTurn (cfg : Config) (calls : List {i : Invocation // i.viaQueue = true}) : RidePool :=
  ridePool.serveAll (rideSystem cfg).reliable (calls.map fun i => (i.1, []))

theorem timed_servedInTurn (cfg : Config) (calls : List {i : Invocation // i.viaQueue = true}) :
    Timed cfg (servedInTurn cfg calls).world := by
  refine Pool.serveAll_invariant_of (K := fun w => Timed cfg w) (fun q hq w n hw => ?_) ?_
  · obtain ⟨i, -, rfl⟩ := List.mem_map.mp hq
    exact timed_call i.2 hw
  · exact ⟨fun j hj => absurd hj (Table.not_mem_empty j),
      fun j hj => absurd hj (Table.not_mem_empty j),
      fun o ho => absurd ho (Table.not_mem_empty o),
      fun o ho => absurd ho (Table.not_mem_empty o), World.allExecuted_init _ _⟩

/-- Every pending offer is timed by one job, and no offer expires before its time. -/
structure OffersTimed (cfg : Config) (p : RidePool) : Prop where
  /-- One unfinished job, due a grace period after the last submission. -/
  armed : ∀ o ∈ (tablesOf p.world).rideOffers, o.status = .pending →
    ∃ t, lastSubmission p.world.trace o = some t ∧
      ∃ j ∈ p.world.shared.jobs, j.data = .expireOffer o.id ∧ j.unfinished ∧
        j.dueAt = t + cfg.offerExpiryMs ∧
        ∀ k ∈ p.world.shared.jobs, k.data = .expireOffer o.id → k.unfinished → k = j
  /-- No job has expired an offer earlier than that. -/
  punctual : p.world.AllExecuted (ExpiresOverdue cfg)
  /-- The next submission arms a new job, whatever became of the earlier one. -/
  rearms : ∀ driverUserId rideRequestId offeredFare uuid,
    p.reply (rideSystem cfg).reliable
        (.submitOffer driverUserId rideRequestId offeredFare uuid, []) = .ok () →
      Rearmed cfg driverUserId rideRequestId p.world (p.serve (rideSystem cfg).reliable
        (.submitOffer driverUserId rideRequestId offeredFare uuid, [])).world

private theorem submitOffer_rearms {cfg : Config} {p : RidePool} (h : Timed cfg p.world)
    (driverUserId rideRequestId : Id) (offeredFare : Fare) (uuid : Id)
    (hok : p.reply (rideSystem cfg).reliable
      (.submitOffer driverUserId rideRequestId offeredFare uuid, []) = .ok ()) :
    Rearmed cfg driverUserId rideRequestId p.world (p.serve (rideSystem cfg).reliable
      (.submitOffer driverUserId rideRequestId offeredFare uuid, [])).world := by
  let i : Invocation := .submitOffer driverUserId rideRequestId offeredFare uuid
  have hends : (i.code cfg).Ends (rideSystem cfg).reliable p.running.length i
      (fun r w' => r = .ok () → Rearmed cfg driverUserId rideRequestId p.world w') p.world := by
    refine Call.Ends.bind
      ((submitOffer_ends h driverUserId rideRequestId offeredFare uuid).mono ?_)
    rintro (e | offer) w' ⟨-, hrearmed⟩
    · exact nofun
    · exact fun _ => hrearmed offer rfl
  exact hends.eval [] hok

theorem offers_timed (cfg : Config) (calls : List {i : Invocation // i.viaQueue = true}) :
    OffersTimed cfg (servedInTurn cfg calls) := by
  have h := timed_servedInTurn cfg calls
  refine ⟨fun o ho hst => ?_, h.punctual, submitOffer_rearms h⟩
  obtain ⟨j, hj, hdata, hstate, t, ht, hdue⟩ := h.armed o ho hst nofun
  exact ⟨t, ht, j, hj, hdata, Or.inl hstate, hdue,
    fun k hk hkdata _ => h.labelled.eq_of_data hk hj (hkdata.trans hdata.symm)⟩

/-- The job of the first submission has run, and the second arms it again. -/
example : (servedInTurn .default
    [⟨.verifyDriver "driver" "application" "profile", rfl⟩,
      ⟨.create "rider" ⟨0, 0, 1, 1, 1000⟩ "request", rfl⟩,
      ⟨.submitOffer "driver" "request" 1500 "offer", rfl⟩, ⟨.elapse 60000, rfl⟩,
      ⟨.runJob "offer-offer", rfl⟩,
      ⟨.submitOffer "driver" "request" 1200 "other", rfl⟩]).world.shared.jobs.rows =
    [{ jobId := "offer-offer", data := .expireOffer "offer", dueAt := 120000 }] := by
  decide +kernel

end Reedr
