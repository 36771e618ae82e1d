import Mathlib.Data.Nat.Count
import Reedr.Library.Retry
import Reedr.Ride.Consistency

/-!
# Retrying an expiry job

Both handlers of the expiry queue test the status before they write, so an attempt
that broke off is repeated without harm. What a job does to the tables is stated as
one idempotent operation; each attempt carries it out or leaves the tables alone.
Whatever else runs between the attempts, an offer that is not PENDING stays as it is,
and an expiry is announced directly after the statement that made it.
-/

namespace Reedr
open Relational Interleaving

/-- An offer keeps its keys when it expires. -/
theorem RideOffer.keys_expired (o : RideOffer) :
    Keyed.keys { o with status := .expired } = Keyed.keys o := rfl

namespace OfferExpiryJob

/-- The offers a job is to expire: the PENDING one it names, if it has a driver, or
those of a driver who is offline. -/
def due (db : RideTables) : OfferExpiryJob → RideOffer → Bool
  | .expireOffer offerId, o => o.id = offerId ∧ o.status = .pending ∧ (db.withDriver o).isSome
  | .expireDriverPendingOffers driverProfileId, o =>
      o.driverId = driverProfileId ∧ o.status = .pending ∧
        ∃ p ∈ db.findDriverProfile driverProfileId, p.isOnline = false

/-- The tables with the offers of a job expired. -/
def carriedOut (job : OfferExpiryJob) (db : RideTables) : RideTables :=
  { db with
    rideOffers := db.rideOffers.modify (job.due db) (fun o => { o with status := .expired })
      RideOffer.keys_expired }

theorem mem_carriedOut {job : OfferExpiryJob} {db : RideTables} {x : RideOffer} :
    x ∈ (job.carriedOut db).rideOffers ↔ ∃ o ∈ db.rideOffers,
      (if job.due db o then { o with status := .expired } else o) = x := by
  simp only [carriedOut, Table.mem_modify]

theorem pending_of_due {job : OfferExpiryJob} {db : RideTables} {o : RideOffer}
    (h : job.due db o = true) : o.status = .pending := by
  cases job with
  | expireOffer offerId => exact (of_decide_eq_true h).2.1
  | expireDriverPendingOffers driverProfileId => exact (of_decide_eq_true h).2.1

/-- Expiring offers changes nothing that decides which offers are due. -/
theorem due_carriedOut (job : OfferExpiryJob) (db : RideTables) :
    job.due (job.carriedOut db) = job.due db := by
  cases job <;> rfl

theorem carriedOut_eq_self {job : OfferExpiryJob} {db : RideTables}
    (h : ∀ o ∈ db.rideOffers, job.due db o = false) : job.carriedOut db = db := by
  unfold carriedOut
  rw [Table.modify_eq_self h]

/-- A job that has been carried out finds nothing left to do. -/
theorem carriedOut_carriedOut (job : OfferExpiryJob) (db : RideTables) :
    job.carriedOut (job.carriedOut db) = job.carriedOut db := by
  apply carriedOut_eq_self
  intro o ho
  rw [due_carriedOut]
  apply Bool.eq_false_iff.mpr
  intro hdue
  obtain ⟨r, -, rfl⟩ := mem_carriedOut.mp ho
  split at hdue
  · cases pending_of_due hdue
  · next hnot => exact hnot hdue

end OfferExpiryJob

namespace RideTables
variable {db db' : RideTables} {offerId driverProfileId : Id}

/-- Every offer that is not PENDING is still there, the same in every column. -/
def KeepsClosed (db db' : RideTables) : Prop :=
  ∀ o ∈ db.rideOffers, o.status ≠ .pending → o ∈ db'.rideOffers

/-- The offer exists and has the status. -/
def OfferIs (db : RideTables) (offerId : Id) (status : OfferStatus) : Prop :=
  ∃ o ∈ db.rideOffers, o.id = offerId ∧ o.status = status

instance (offerId : Id) (status : OfferStatus) : Decidable (db.OfferIs offerId status) :=
  inferInstanceAs (Decidable (∃ o ∈ db.rideOffers, _))

namespace KeepsClosed

theorem refl (db : RideTables) : db.KeepsClosed db := fun _ ho _ => ho

theorem trans {db₁ db₂ db₃ : RideTables} (h₁ : db₁.KeepsClosed db₂) (h₂ : db₂.KeepsClosed db₃) :
    db₁.KeepsClosed db₃ :=
  fun o ho hclosed => h₂ o (h₁ o ho hclosed) hclosed

theorem of_eq (h : db'.rideOffers = db.rideOffers) : db.KeepsClosed db' :=
  fun _ ho _ => h ▸ ho

/-- A statement that rewrites offers may rewrite PENDING ones only. -/
theorem of_rewrites {f : RideOffer → RideOffer} (h : db.rideOffers.Rewrites f db'.rideOffers)
    (hf : ∀ o ∈ db.rideOffers, o.status ≠ .pending → f o = o) : db.KeepsClosed db' := by
  intro o ho hclosed
  rw [← hf o ho hclosed]
  exact h.mem ho

theorem carriedOut (job : OfferExpiryJob) (db : RideTables) :
    db.KeepsClosed (job.carriedOut db) := by
  intro o ho hclosed
  refine OfferExpiryJob.mem_carriedOut.mpr ⟨o, ho, if_neg ?_⟩
  exact fun hdue => hclosed (OfferExpiryJob.pending_of_due hdue)

/-- An offer that has left PENDING keeps its status. -/
theorem offerIs (h : db.KeepsClosed db') {status : OfferStatus} (hclosed : status ≠ .pending)
    (ho : db.OfferIs offerId status) : db'.OfferIs offerId status := by
  obtain ⟨o, ho, hid, rfl⟩ := ho
  exact ⟨o, h o ho hclosed, hid, rfl⟩

end KeepsClosed

/-- An offer has one status. -/
theorem OfferIs.unique {status status' : OfferStatus} (h : db.OfferIs offerId status)
    (h' : db.OfferIs offerId status') : status = status' := by
  obtain ⟨o, ho, hid, rfl⟩ := h
  obtain ⟨o', ho', hid', rfl⟩ := h'
  rw [RideOffer.eq_of_id ho ho' (hid.trans hid'.symm)]

/-- The update by id expires the offer that was read, and no other. -/
theorem expireOffer_carriedOut {offer : OfferWithDriver} {x : RideOffer}
    (hfind : db.findOffer offerId = some offer) (hpending : offer.offer.status = .pending)
    (h : db.expireOffer offerId = .ok (x, db')) :
    db' = (OfferExpiryJob.expireOffer offerId).carriedOut db := by
  obtain ⟨o, ho, hdriver⟩ := Option.bind_eq_some_iff.mp hfind
  obtain ⟨hmem, hid⟩ := Table.find?_some ho
  obtain ⟨rfl, -⟩ := withDriver_some hdriver
  simp only [expireOffer, bind_eq_ok, pure, Except.pure, Except.ok.injEq, Prod.mk.injEq] at h
  obtain ⟨⟨y, offers⟩, hupdate, rfl, rfl⟩ := h
  obtain ⟨-, -, -, -, -, hmany⟩ := Table.update_ok hupdate
  cases hmany.symm.trans (Table.updateMany_eq_modify db.rideOffers (fun o => o.id = offerId)
    (fun o => { o with status := .expired }) RideOffer.keys_expired)
  unfold OfferExpiryJob.carriedOut
  congr 1
  apply Table.modify_congr
  intro r hr
  apply decide_eq_decide.mpr
  constructor
  · intro hrid
    obtain rfl := RideOffer.eq_of_id hr hmem (hrid.trans (of_decide_eq_true hid).symm)
    exact ⟨hrid, hpending, by rw [hdriver]; rfl⟩
  · exact fun hdue => hdue.1

/-- Where the job reads no PENDING offer there is nothing for it to do. -/
theorem carriedOut_of_not_pending
    (h : ∀ offer ∈ db.findOffer offerId, offer.offer.status ≠ .pending) :
    (OfferExpiryJob.expireOffer offerId).carriedOut db = db := by
  apply OfferExpiryJob.carriedOut_eq_self
  intro o ho
  apply Bool.eq_false_iff.mpr
  intro hdue
  obtain ⟨rfl, hpending, hdriver⟩ := of_decide_eq_true hdue
  obtain ⟨x, hx⟩ := Option.isSome_iff_exists.mp hdriver
  have hfind : db.rideOffers.find? (fun r => r.id = o.id) = some o :=
    Table.find?_of_unique ho (decide_eq_true rfl) fun r hr hid =>
      RideOffer.eq_of_id hr ho (of_decide_eq_true hid)
  apply h x
  · rw [findOffer, hfind]
    exact hx
  · rw [(withDriver_some hx).1]
    exact hpending

theorem expireDriverOffers_carriedOut {driver : DriverProfile}
    (hfind : db.findDriverProfile driverProfileId = some driver)
    (hoffline : driver.isOnline = false)
    (h : db.expireDriverOffers driverProfileId = .ok ((), db')) :
    db' = (OfferExpiryJob.expireDriverPendingOffers driverProfileId).carriedOut db := by
  simp only [expireDriverOffers, bind_eq_ok, pure, Except.pure, Except.ok.injEq,
    Prod.mk.injEq] at h
  obtain ⟨offers, hmany, -, rfl⟩ := h
  cases hmany.symm.trans (Table.updateMany_eq_modify db.rideOffers
    (fun o => o.driverId = driverProfileId ∧ o.status = .pending)
    (fun o => { o with status := .expired }) RideOffer.keys_expired)
  unfold OfferExpiryJob.carriedOut
  congr 1
  apply Table.modify_congr
  intro r _
  apply decide_eq_decide.mpr
  constructor
  · rintro ⟨hdriver, hpending⟩
    exact ⟨hdriver, hpending, driver, hfind, hoffline⟩
  · rintro ⟨hdriver, hpending, -⟩
    exact ⟨hdriver, hpending⟩

/-- An unknown driver, or one who is back online, keeps the offers. -/
theorem carriedOut_of_online
    (h : ∀ driver ∈ db.findDriverProfile driverProfileId, driver.isOnline = true) :
    (OfferExpiryJob.expireDriverPendingOffers driverProfileId).carriedOut db = db := by
  apply OfferExpiryJob.carriedOut_eq_self
  intro o _
  apply Bool.eq_false_iff.mpr
  intro hdue
  obtain ⟨-, -, driver, hdriver, hoffline⟩ := of_decide_eq_true hdue
  rw [h driver hdriver] at hoffline
  cases hoffline

end RideTables

section Attempts
variable {cfg : Config} {n : Nat} {i : Invocation} {w : RideWorld}

/-- Wherever it stops, an attempt has carried its job out or left the tables alone. -/
theorem process_passes (job : OfferExpiryJob) :
    (OfferExpiryProcessor.process job).Passes (rideSystem cfg) n i
      (fun w' => tablesOf w' = tablesOf w ∨ tablesOf w' = job.carriedOut (tablesOf w)) w := by
  cases job with
  | expireOffer offerId =>
      simp only [OfferExpiryProcessor.process, OffersService.expireIfStillPending, bind_assoc]
      apply Call.Passes.perform_bind (Or.inl rfl)
      intro b s hfind
      cases hfind
      cases hfound : w.shared.tables.findOffer offerId with
      | none => exact Or.inl rfl
      | some offer =>
          dsimp only
          split
          · next hpending =>
              rw [bind_assoc]
              apply Call.Passes.perform_bind (Or.inl rfl)
              intro x s hupdate
              have hdone := RideTables.expireOffer_carriedOut hfound hpending
                (Backend.onTables_ok (fun db => db.expireOffer offerId) hupdate).1
              apply Call.Passes.perform (Or.inr hdone)
              intro _ s' hemit
              cases hemit
              exact Or.inr hdone
          · exact Or.inl rfl
  | expireDriverPendingOffers driverProfileId =>
      apply Call.Passes.perform_bind (Or.inl rfl)
      intro b s hfind
      cases hfind
      cases hfound : w.shared.tables.findDriverProfile driverProfileId with
      | none => exact Or.inl rfl
      | some driver =>
          dsimp only
          split
          · exact Or.inl rfl
          · next hoffline =>
              apply Call.Passes.perform (Or.inl rfl)
              intro _ s hupdate
              exact Or.inr (RideTables.expireDriverOffers_carriedOut hfound
                (Bool.eq_false_iff.mpr hoffline)
                (Backend.onTables_ok (fun db => db.expireDriverOffers driverProfileId) hupdate).1)

/-- An attempt that nothing stops carries its job out. -/
theorem process_eval (job : OfferExpiryJob) :
    tablesOf ((OfferExpiryProcessor.process job).eval (rideSystem cfg) n i [] w).2 =
      job.carriedOut (tablesOf w) := by
  cases job with
  | expireOffer offerId =>
      simp only [OfferExpiryProcessor.process, OffersService.expireIfStillPending, bind_assoc]
      rw [Call.eval_step rfl rfl]
      cases hfound : w.shared.tables.findOffer offerId with
      | none =>
          rw [RideTables.carriedOut_of_not_pending (by simp [hfound])]
          rfl
      | some offer =>
          dsimp only
          split
          · next hpending =>
              obtain ⟨hmem, hid, -⟩ := RideTables.findOffer_some hfound
              obtain ⟨x, db, hok⟩ := RideTables.expireOffer_isOk hmem hid
              rw [bind_assoc, Call.eval_step rfl (Backend.onTables_of_ok
                (f := fun db => db.expireOffer offerId) hok)]
              exact RideTables.expireOffer_carriedOut hfound hpending hok
          · next hclosed =>
              rw [RideTables.carriedOut_of_not_pending (by simpa [hfound] using hclosed)]
              rfl
  | expireDriverPendingOffers driverProfileId =>
      simp only [OfferExpiryProcessor.process, OffersService.expireAllPendingOffersForDriver]
      rw [Call.eval_step rfl rfl]
      cases hfound : w.shared.tables.findDriverProfile driverProfileId with
      | none =>
          rw [RideTables.carriedOut_of_online (by simp [hfound])]
          rfl
      | some driver =>
          dsimp only
          split
          · next honline =>
              rw [RideTables.carriedOut_of_online (by simpa [hfound] using honline)]
              rfl
          · next hoffline =>
              obtain ⟨db, hok⟩ := RideTables.expireDriverOffers_isOk w.shared.tables driverProfileId
              rw [← bind_pure (perform _), Call.eval_step rfl (Backend.onTables_of_ok
                (f := fun db => db.expireDriverOffers driverProfileId) hok)]
              exact RideTables.expireDriverOffers_carriedOut hfound
                (Bool.eq_false_iff.mpr hoffline) hok

/-- As far as the tables are concerned, an expiry job can be retried. -/
theorem process_retryable (cfg : Config) (job : OfferExpiryJob) :
    Retryable (rideSystem cfg) (.process job) Backend.tables job.carriedOut where
  idempotent := job.carriedOut_carriedOut
  broken _ _ := process_passes job
  whole _ _ := process_eval job

/-- No attempt changes an offer that was not PENDING when it began. -/
theorem attempt_keepsClosed (p : RidePool) (job : OfferExpiryJob) (steps : Nat) :
    (tablesOf p.world).KeepsClosed
      (tablesOf (p.attempt (rideSystem cfg) (.process job) steps).world) := by
  have hpasses : (OfferExpiryProcessor.process job).Passes (rideSystem cfg) p.running.length
      (.process job) (fun w => tablesOf w = tablesOf p.world ∨
        tablesOf w = job.carriedOut (tablesOf p.world)) p.world := process_passes job
  have hstopped : tablesOf (p.attempt (rideSystem cfg) (.process job) steps).world =
        tablesOf p.world ∨
      tablesOf (p.attempt (rideSystem cfg) (.process job) steps).world =
        job.carriedOut (tablesOf p.world) := hpasses.breakOff steps
  rcases hstopped with hsame | hdone
  · rw [hsame]
    exact .refl _
  · rw [hdone]
    exact .carriedOut job _

end Attempts

section Announcements

/-- The statement announces an expiry. -/
def Stmt.announcesExpiry : Stmt → Bool
  | .emit (.offerExpired _ _ _) => true
  | _ => false

/-- The statement announces that the offer has expired. -/
def Stmt.announces (offerId : Id) : Stmt → Bool
  | .emit (.offerExpired _ id _) => id = offerId
  | _ => false

/-- Statement `k` of the history announces that the offer has expired. -/
def AnnouncesExpiry (offerId : Id) (w : RideWorld) (k : Nat) : Prop :=
  ∃ c ∈ w.trace[k]?, Stmt.announces offerId c.op = true

/-- Statement `k` of the history takes the offer from PENDING to EXPIRED. -/
def ExpiresOffer (offerId : Id) (w : RideWorld) (k : Nat) : Prop :=
  (w.moment k).tables.OfferIs offerId .pending ∧
    (w.moment (k + 1)).tables.OfferIs offerId .expired

instance (offerId : Id) (w : RideWorld) : DecidablePred (AnnouncesExpiry offerId w) :=
  fun k => inferInstanceAs (Decidable (∃ c ∈ w.trace[k]?, _))

instance (offerId : Id) (w : RideWorld) : DecidablePred (ExpiresOffer offerId w) :=
  fun _ => inferInstanceAs (Decidable (_ ∧ _))

/-- Every announcement comes directly after the expiry it is about, in the same call. -/
def AnnouncedInTurn (w : RideWorld) : Prop :=
  ∀ offerId k, AnnouncesExpiry offerId w k →
    ∃ j, k = j + 1 ∧ ExpiresOffer offerId w j ∧ w.callAt j = w.callAt k

variable {cfg : Config} {w : RideWorld} {n : Nat} {i : Invocation} {o : Stmt} {s : Backend}
  {offerId : Id}

theorem announces_eq_false (h : o.announcesExpiry = false) : o.announces offerId = false := by
  cases o with
  | emit ev => cases ev <;> first | rfl | cases h
  | _ => rfl

theorem ExpiresOffer.commit {k : Nat} (h : ExpiresOffer offerId w k) (hk : k < w.trace.length) :
    ExpiresOffer offerId (w.commit n i o s) k := by
  unfold ExpiresOffer
  rw [World.moment_commit (Nat.le_of_lt hk), World.moment_commit hk]
  exact h

theorem expiresOffer_last (hbefore : (tablesOf w).OfferIs offerId .pending)
    (hafter : s.tables.OfferIs offerId .expired) :
    ExpiresOffer offerId (w.commit n i o s) w.trace.length := by
  unfold ExpiresOffer
  rw [World.moment_commit (Nat.le_refl _), World.moment_of_le (Nat.le_refl _),
    World.moment_of_le (by simp)]
  exact ⟨hbefore, hafter⟩

theorem announcedInTurn_init (s : Backend) : AnnouncedInTurn (World.init s) := by
  rintro offerId k ⟨c, hc, -⟩
  cases hc

/-- A statement may announce what its call's last statement has done. -/
theorem AnnouncedInTurn.commit (h : AnnouncedInTurn w)
    (hann : ∀ offerId, o.announces offerId = true → ∃ j, w.trace.length = j + 1 ∧
      ExpiresOffer offerId w j ∧ w.callAt j = some n) : AnnouncedInTurn (w.commit n i o s) := by
  rintro offerId k ⟨c, hc, hop⟩
  by_cases hk : k < w.trace.length
  · rw [World.commit_trace, List.getElem?_append_left hk] at hc
    obtain ⟨j, rfl, hexpires, hcall⟩ := h offerId k ⟨c, hc, hop⟩
    refine ⟨j, rfl, hexpires.commit (Nat.lt_of_succ_lt hk), ?_⟩
    rw [World.callAt_commit (Nat.lt_of_succ_lt hk), World.callAt_commit hk]
    exact hcall
  · have hlt : k < (w.commit n i o s).trace.length := (List.getElem?_eq_some_iff.mp hc).1
    rw [World.commit_trace, List.length_append, List.length_singleton] at hlt
    obtain rfl : k = w.trace.length := by omega
    rw [World.commit_trace, List.getElem?_concat_length] at hc
    cases hc
    obtain ⟨j, hlength, hexpires, hcall⟩ := hann offerId hop
    have hj : j < w.trace.length := by omega
    refine ⟨j, hlength, hexpires.commit hj, ?_⟩
    rw [World.callAt_commit hj, World.callAt_commit_last]
    exact hcall

theorem AnnouncedInTurn.silent (h : AnnouncedInTurn w) (ho : o.announcesExpiry = false) :
    AnnouncedInTurn (w.commit n i o s) := by
  apply h.commit
  intro offerId hop
  rw [announces_eq_false ho] at hop
  cases hop

/-- An attempt announces nothing but what it has just done. -/
theorem process_announces (job : OfferExpiryJob) (h : AnnouncedInTurn w) :
    (OfferExpiryProcessor.process job).Passes (rideSystem cfg) n i AnnouncedInTurn w := by
  cases job with
  | expireOffer offerId =>
      simp only [OfferExpiryProcessor.process, OffersService.expireIfStillPending, bind_assoc]
      apply Call.Passes.perform_bind h
      intro b s hfind
      cases hfind
      have h₁ := h.silent (n := n) (i := i) (o := .findOffer offerId) (s := w.shared) rfl
      cases hfound : w.shared.tables.findOffer offerId with
      | none => exact h₁
      | some offer =>
          obtain ⟨hmem, hid, -⟩ := RideTables.findOffer_some hfound
          dsimp only
          split
          · next hpending =>
              rw [bind_assoc]
              apply Call.Passes.perform_bind h₁
              intro x s hupdate
              have heffect := RideTables.expireOffer_effect
                (Backend.onTables_ok (fun db => db.expireOffer offerId) hupdate).1
              have hexpired : s.tables.OfferIs offerId .expired := by
                refine ⟨_, heffect.offers.mem hmem, ?_⟩
                rw [expireOfferRow, if_pos hid]
                exact ⟨hid, rfl⟩
              have h₂ := h₁.silent (n := n) (i := i) (o := .expireOffer offerId) (s := s) rfl
              apply Call.Passes.perform h₂
              intro _ s' hemit
              apply h₂.commit
              intro id hop
              obtain rfl : offerId = id := of_decide_eq_true hop
              refine ⟨_, List.length_append, expiresOffer_last ⟨offer.offer, hmem, hid, hpending⟩
                hexpired, World.callAt_commit_last _ n i _ s⟩
          · exact h₁
  | expireDriverPendingOffers driverProfileId =>
      apply Call.Passes.of_uses (P := fun o : Stmt => o.announcesExpiry = false) _ _ h
      · exact fun w o b s ho hw _ => AnnouncedInTurn.silent hw ho
      · exact OffersService.expireAllPendingOffersForDriver_uses (fun _ => rfl) (fun _ => rfl)
          driverProfileId

end Announcements

section Interposed

/-- The whole calls that may come between two attempts: any but a submission, which
opens an offer again, and the expiry of offers itself. -/
def Invocation.interposes : Invocation → Bool
  | .submitOffer _ _ _ _ | .process _ | .runJob _ => false
  | _ => true

/-- A submission of an offer. -/
def Invocation.submits : Invocation → Bool
  | .submitOffer _ _ _ _ => true
  | _ => false

variable {cfg : Config} {w : RideWorld} {n : Nat} {i : Invocation} {o : Stmt} {b : o.Res}
  {s : Backend}

theorem not_submits_of_interposes (h : i.interposes = true) : i.submits = false := by
  cases i with
  | submitOffer driverUserId rideRequestId offeredFare uuid => cases h
  | _ => rfl

/-- Served alone, no call but a submission changes an offer that is not PENDING. -/
theorem keepsClosed_commit {I : RideWorld → Prop} (hi : i.submits = false)
    (hJ : Issued I SameTables w i o) (hx : Backend.exec cfg o w.shared = .ok (b, s)) :
    (tablesOf w).KeepsClosed s.tables := by
  have hwrote := Backend.exec_wrote hx
  generalize s.tables = db' at hwrote
  cases hwrote with
  | nothing ho => exact .refl _
  | createDriverProfile he => exact .of_eq he.offers
  | updateDriverProfile ho he hf => exact .of_eq he.offers
  | createRideRequest he => exact .of_eq he.offers
  | upsertOffer he =>
      obtain ⟨p, -, -, rfl⟩ := hJ.1.now
      cases hi
  | @acceptBatch a _ _ _ he =>
      have hread : AcceptRead a i (tablesOf w) := Seen.now hJ
      obtain ⟨x, hx, hid, -, -, hpending, -⟩ := hread.offer
      apply RideTables.KeepsClosed.of_rewrites he.offers
      intro y hy hclosed
      have hother : y.id ≠ a.offerId := by
        intro hyid
        obtain rfl := RideOffer.eq_of_id hy hx (hyid.trans hid.symm)
        exact hclosed hpending
      simp [Acceptance.onOffer, hother, hclosed]
  | @expireOffer offerId _ _ he =>
      have hseen : Seen I SameTables w fun db =>
        ∃ o ∈ db.rideOffers, o.id = offerId ∧ o.status = .pending := hJ
      obtain ⟨x, hx, hid, hpending⟩ := hseen.now
      apply RideTables.KeepsClosed.of_rewrites he.offers
      intro y hy hclosed
      refine if_neg fun hyid => hclosed ?_
      rwa [RideOffer.eq_of_id hy hx (hyid.trans hid.symm)]
  | expireDriverOffers he =>
      exact .of_rewrites he.offers fun y _ hclosed => if_neg fun hy => hclosed hy.2
  | cancelBatch he =>
      exact .of_rewrites he.offers fun y _ hclosed => if_neg fun hy => hclosed hy.2
  | startBatch he => exact .of_eq he.offers
  | completeBatch he => exact .of_eq he.offers

private theorem findIdentityByUserId_silent (userId : Id) :
    (DriversService.findIdentityByUserId userId).Uses fun o : Stmt => o.announcesExpiry = false :=
  DriversService.findIdentityByUserId_uses (fun _ => rfl) (fun _ => rfl) (fun _ _ => rfl) userId

/-- Only the expiry jobs announce that an offer has expired. -/
theorem interposed_silent (hi : i.interposes = true) :
    (i.code cfg).Uses fun o : Stmt => o.announcesExpiry = false := by
  cases i with
  | create riderId dto uuid =>
      exact Call.Uses.void (RideRequestsService.create_uses (fun _ => rfl) (fun _ _ => rfl)
        (fun _ _ => rfl) _ _ _)
  | cancel id requester reason =>
      apply Call.Uses.void
      exact RideRequestsService.cancel_uses (fun _ => rfl) (by rfl) (fun _ => rfl)
        (fun _ _ => rfl) _ _ _
  | acceptOffer riderId offerId uuid =>
      exact Call.Uses.void (OffersService.acceptOffer_uses (fun _ => rfl) (fun _ _ => rfl)
        (fun _ => rfl) (fun _ => rfl) (fun _ => rfl) (fun _ _ _ _ => rfl) _ _ _)
  | start tripId driverUserId =>
      apply Call.Uses.void
      exact TripsService.start_uses (fun _ => rfl) (by rfl) (fun _ => rfl) (fun _ => rfl) _ _
  | complete tripId driverUserId =>
      apply Call.Uses.void
      exact TripsService.complete_uses (fun _ => rfl) (by rfl) (fun _ => rfl) (fun _ => rfl) _ _
  | setOnlineStatus userId isOnline =>
      exact Call.Uses.void (DriversService.setOnlineStatus_uses findIdentityByUserId_silent
        (fun _ _ => rfl) (fun _ _ _ _ => rfl) _ _)
  | goOffline userId =>
      exact DriversService.goOffline_uses findIdentityByUserId_silent (fun _ => rfl)
        (fun _ _ _ _ => rfl) (fun _ => rfl) userId
  | locationUpdate userId lat lng =>
      exact RealtimeGateway.onLocationUpdate_uses (fun _ => rfl)
        (DriversService.updateLocation_uses findIdentityByUserId_silent rfl (fun _ => rfl)
          fun _ _ _ => rfl) (fun _ => rfl) fun _ _ => rfl
  | verifyDriver userId driverApplicationId uuid => exact Call.Uses.perform rfl
  | evictIdentity userId => exact Call.Uses.perform rfl
  | elapse duration => exact Call.Uses.perform rfl
  | submitOffer driverUserId rideRequestId offeredFare uuid => cases hi
  | process job => cases hi
  | runJob jobId => cases hi

end Interposed

/-- What happens next while an expiry job is being retried. -/
abbrev RetryTurn := Pool.Turn Invocation Invocation.interposes

section Retries
variable (cfg : Config) (s : Backend) (job : OfferExpiryJob) (ts : List RetryTurn)

/-- Attempts at the job and other whole calls, from any state. -/
def retried : RidePool := (Pool.init s : RidePool).turns (rideSystem cfg) (.process job) ts

theorem stepsBy_keepsClosed_retried :
    (retried cfg s job ts).world.StepsBy fun s s' => s.tables.KeepsClosed s'.tables := by
  have keep {i : Invocation} (hi : i.submits = false) {w : RideWorld} {n : Nat} {o : Stmt}
      {b : o.Res} {s : Backend} (hw : w.StepsBy fun s s' => s.tables.KeepsClosed s'.tables)
      (hJ : Issued (fun w => w.StepsBy fun s s' => s.tables.KeepsClosed s'.tables) SameTables w i o)
      (hx : Backend.exec cfg o w.shared = .ok (b, s)) :
      (w.commit n i o s).StepsBy fun s s' => s.tables.KeepsClosed s'.tables :=
    hw.commit (keepsClosed_commit hi hJ hx)
  apply Pool.turns_invariant
    (K := fun w : RideWorld => w.StepsBy fun s s' => s.tables.KeepsClosed s'.tables)
  · intro w n hw
    exact Call.Passes.of_justified sameTables_reads.refl (keep rfl)
      (code_issued sameTables_reads (.process job) w) hw
  · intro i hi w n hw
    exact Call.Ends.of_justified sameTables_reads.refl (keep (not_submits_of_interposes hi))
      (code_issued sameTables_reads i w) hw
  · exact World.stepsBy_init _ s

theorem announcedInTurn_retried : AnnouncedInTurn (retried cfg s job ts).world := by
  apply Pool.turns_invariant (K := AnnouncedInTurn)
  · intro w n hw
    exact process_announces job hw
  · intro i hi w n hw
    exact Call.Ends.of_uses (fun w o b s ho hw _ => AnnouncedInTurn.silent hw ho)
      (interposed_silent hi) hw
  · exact announcedInTurn_init s

/-- An announcement follows on its expiry, so there are no more of them than expiries. -/
private theorem count_le_of_follows {p q : Nat → Prop} [DecidablePred p] [DecidablePred q]
    (h : ∀ k, q k → ∃ j, k = j + 1 ∧ p j) (n : Nat) : Nat.count q n ≤ Nat.count p n := by
  have hshift (n : Nat) : Nat.count q (n + 1) ≤ Nat.count p n := by
    induction n with
    | zero =>
        have hzero : ¬ q 0 := by
          intro hq
          obtain ⟨j, hj, -⟩ := h 0 hq
          omega
        simp [Nat.count_succ, hzero]
    | succ n ih =>
        rw [Nat.count_succ, Nat.count_succ p]
        by_cases hq : q (n + 1)
        · obtain ⟨j, hj, hp⟩ := h (n + 1) hq
          obtain rfl : n = j := by omega
          rw [if_pos hq, if_pos hp]
          omega
        · rw [if_neg hq]
          omega
  cases n with
  | zero => simp
  | succ n =>
      calc Nat.count q (n + 1)
          _ ≤ Nat.count p n := hshift n
          _ ≤ Nat.count p (n + 1) := Nat.count_monotone p (Nat.le_succ n)

/-- What makes a job safe to retry, from the state `s` on. -/
structure RetrySafe : Prop where
  /-- With nothing in between, attempts that broke off leave no trace in the tables
  once a whole attempt has ended. -/
  same_tables : ∀ stops : List Nat,
    tablesOf ((retried cfg s job (stops.map .attempt)).serve (rideSystem cfg)
        (.process job, [])).world =
      tablesOf ((retried cfg s job []).serve (rideSystem cfg) (.process job, [])).world
  /-- Whatever has come between, the next attempt changes PENDING offers only. -/
  keeps_closed : ∀ (ts : List RetryTurn) (steps : Nat),
    (tablesOf (retried cfg s job ts).world).KeepsClosed
      (tablesOf (retried cfg s job (ts ++ [.attempt steps])).world)
  /-- An expiry is announced directly after the statement that made it. -/
  announced_in_turn : ∀ ts : List RetryTurn, AnnouncedInTurn (retried cfg s job ts).world
  announced_once : ∀ (ts : List RetryTurn) (offerId : Id),
    let w := (retried cfg s job ts).world
    Nat.count (AnnouncesExpiry offerId w) w.trace.length ≤
      Nat.count (ExpiresOffer offerId w) w.trace.length
  /-- An offer whose expiry was announced is ACCEPTED neither before nor after. -/
  never_accepted : ∀ (ts : List RetryTurn) (offerId : Id),
    let w := (retried cfg s job ts).world
    (∃ k, AnnouncesExpiry offerId w k) →
      ∀ m, ¬ (w.moment m).tables.OfferIs offerId .accepted

/-- Every expiry job may be retried after any attempts that broke off and any other
calls in between: the tables end up as after one attempt, no attempt touches an offer
that has left PENDING, and each expiry is announced at most once and never for an offer
that was accepted. -/
theorem retry_safe (cfg : Config) (s : Backend) (job : OfferExpiryJob) : RetrySafe cfg s job := by
  constructor
  · intro stops
    exact (process_retryable cfg job).serve_attempts (Pool.init s) stops
  · intro ts steps
    have hturn : retried cfg s job (ts ++ [.attempt steps]) =
        (retried cfg s job ts).attempt (rideSystem cfg) (.process job) steps := by
      simp [retried, Pool.turns, Pool.turn, List.foldl_append]
    rw [hturn]
    exact attempt_keepsClosed _ job steps
  · exact announcedInTurn_retried cfg s job
  · intro ts offerId w
    apply count_le_of_follows
    intro k hk
    obtain ⟨j, hj, hexpires, -⟩ := announcedInTurn_retried cfg s job ts offerId k hk
    exact ⟨j, hj, hexpires⟩
  · rintro ts offerId w ⟨k, hk⟩ m haccepted
    obtain ⟨j, rfl, ⟨-, hexpired⟩, -⟩ := announcedInTurn_retried cfg s job ts offerId k hk
    have hsteps : w.StepsBy fun s s' => s.tables.KeepsClosed s'.tables :=
      stepsBy_keepsClosed_retried cfg s job ts
    have hbetween {k m : Nat} (hkm : k ≤ m) :
        (w.moment k).tables.KeepsClosed (w.moment m).tables :=
      hsteps.of_le (fun s => .refl s.tables) RideTables.KeepsClosed.trans hkm
    rcases Nat.le_total (j + 1) m with hle | hle
    · have hstill := (hbetween hle).offerIs (by simp) hexpired
      cases hstill.unique haccepted
    · have hstill := (hbetween hle).offerIs (by simp) haccepted
      cases hstill.unique hexpired

/-- An attempt that stops between its update and its event leaves an expiry which no
later attempt announces. -/
example :
    let s := (ridePool.serveAll (rideSystem .default)
      [(.verifyDriver "driver" "application" "profile", []),
        (.create "rider" ⟨6, 3, 7, 4, 1500⟩ "request", []),
        (.submitOffer "driver" "request" 1500 "offer", [])]).world.shared
    let w := (retried .default s (.expireOffer "offer") [.attempt 2, .attempt 3]).world
    ExpiresOffer "offer" w 1 ∧ ∀ k < w.trace.length, ¬ AnnouncesExpiry "offer" w k := by
  decide +kernel

end Retries

end Reedr
