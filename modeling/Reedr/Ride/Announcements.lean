import Reedr.Library.Alone
import Reedr.Ride.ExpiryQueue
import Reedr.Ride.Issued

/-!
# Rows and the events that announce them

Creating a request, submitting an offer and accepting one commit to the database
and then take further steps outside the process before the event is emitted. A
step that fails there leaves the rows behind, without the event; a response that
cannot be made leaves them behind and the caller with an error.

## Implementation notes

A call is served alone, on any reachable state, and any of its statements may be
refused. `Writes` reads off the state before the call what its write makes of the
tables, which of the statements after it are not caught, and the response.
-/

namespace Reedr
open Relational Interleaving

/-- The three methods that emit an event about rows they have just written. -/
inductive Negotiation where
  | create (riderId : Id) (dto : RideRequestsService.CreateRideRequestDto) (uuid : Id)
  | submitOffer (driverUserId rideRequestId : Id) (offeredFare : Fare) (uuid : Id)
  | acceptOffer (riderId offerId uuid : Id)

namespace Negotiation

def invocation : Negotiation → Invocation
  | .create riderId dto uuid => .create riderId dto uuid
  | .submitOffer driverUserId rideRequestId offeredFare uuid =>
      .submitOffer driverUserId rideRequestId offeredFare uuid
  | .acceptOffer riderId offerId uuid => .acceptOffer riderId offerId uuid

/-- `RideRequestCreated`, `OfferSubmitted` or `OfferAccepted` about the call's row. -/
def Announces : Negotiation → DomainEvent → Prop
  | .create _ _ uuid, .rideRequestCreated rideRequest _ => rideRequest.id = uuid
  | .submitOffer _ rideRequestId _ _, .offerSubmitted offer _ => offer.rideRequestId = rideRequestId
  | .acceptOffer _ offerId uuid, .offerAccepted _ trip acceptedOffer _ =>
      trip.id = uuid ∧ acceptedOffer.id = offerId
  | _, _ => False

end Negotiation

/-- Requests, offers and trips are exactly as they were. -/
def RideTables.SameRides (db db' : RideTables) : Prop :=
  db'.rideRequests = db.rideRequests ∧ db'.rideOffers = db.rideOffers ∧ db'.trips = db.trips

/-- If the call throws it leaves the rides as they were in `w`, and if it changes them it
returns, with its event emitted. -/
structure Announced (c : Negotiation) (n : Nat) (w : RideWorld)
    (r : Except ServiceError Unit × RideWorld) : Prop where
  unchanged : ∀ e, r.1 = .error e → (tablesOf w).SameRides (tablesOf r.2)
  emitted : ¬ (tablesOf w).SameRides (tablesOf r.2) →
    r.1 = .ok () ∧ ∃ ev, c.Announces ev ∧ .emit ev ∈ executed n r.2.trace

/-- The statements of `cancelScheduledExpiry`: a refused `getJob` is thrown, a refused
removal is caught. -/
def expirySteps (jobs : JobQueue) (offerId : Id) : List Bool :=
  match jobs.getJob (OffersService.offerJobId offerId) with
  | some _ => [true, false]
  | none => [true]

/-- The call's write, in state `s`: how many statements there are up to it, the tables it
leaves, of the statements that follow it those whose refusal is thrown, and whether the
response is converted after them. -/
inductive Negotiation.Writes (cfg : Config) (s : Backend) :
    Negotiation → Nat → RideTables → List Bool → Except String Unit → Prop where
  | create {riderId uuid : Id} {dto : RideRequestsService.CreateRideRequestDto} {r db}
      (hcreate : s.tables.createRideRequest
        { id := uuid
          riderId
          pickupLat := dto.pickupLat
          pickupLng := dto.pickupLng
          dropoffLat := dto.dropoffLat
          dropoffLng := dto.dropoffLng
          suggestedFare := dto.suggestedFare } = .ok (r, db)) :
      Writes cfg s (.create riderId dto uuid) 1 db [true]
        ((RideRequestResponseDto.from cfg.plainToInstance
          { rideRequest := r
            nearbyDriverCount := some (cfg.findNearbyDrivers db.driverProfiles dto.pickupLat
              dto.pickupLng).length }).map fun _ => ())
  | submitOffer {driverUserId rideRequestId uuid : Id} {offeredFare : Fare}
      {driverProfile rideRequest offer db}
      (hprofile : s.tables.findDriverProfileByUser driverUserId = some driverProfile)
      (hrequest : s.tables.findRideRequest rideRequestId = some rideRequest)
      (hpending : rideRequest.status = .pending)
      (hupsert : s.tables.upsertOffer rideRequestId driverProfile.id offeredFare uuid =
        .ok (offer, db)) :
      Writes cfg s (.submitOffer driverUserId rideRequestId offeredFare uuid) 3 db
        (expirySteps s.jobs offer.id ++ [true]) (.ok ())
  | acceptOffer {riderId offerId uuid : Id} {offer trip db}
      (hoffer : s.tables.findOfferWithRequest offerId = some offer)
      (hrider : offer.rideRequest.riderId = riderId)
      (hpending : offer.rideRequest.status = .pending ∧ offer.offer.status = .pending)
      (hbatch : s.tables.acceptBatch
        { offerId := offer.offer.id
          rideRequestId := offer.offer.rideRequestId
          driverUserId := offer.driverUserId
          riderId
          offeredFare := offer.offer.offeredFare
          tripId := uuid } = .ok (trip, db)) :
      Writes cfg s (.acceptOffer riderId offerId uuid) 3 db
        ((offer.offer.id :: (s.tables.findOtherPendingOffers offer.offer.rideRequestId
          offer.offer.id).map fun o => o.offer.id).flatMap (expirySteps s.jobs)) (.ok ())

/-- The call gets to change a ride, and a step after that is refused and not caught, or
the conversion of the response throws. -/
def Negotiation.CutShort (cfg : Config) (c : Negotiation) (s : Backend)
    (refusals : List Bool) : Prop :=
  ∃ n db steps response, c.Writes cfg s n db steps response ∧
    ¬ Call.Refused (List.replicate n true) refusals ∧ ¬ s.tables.SameRides db ∧
      (Call.Refused steps (refusals.drop n) ∨ response ≠ .ok ())

theorem Negotiation.Writes.unique {cfg : Config} {s : Backend} {c : Negotiation} {n n' : Nat}
    {db db' : RideTables} {steps steps' : List Bool} {response response' : Except String Unit}
    (h : c.Writes cfg s n db steps response) (h' : c.Writes cfg s n' db' steps' response') :
    n = n' ∧ db = db' ∧ steps = steps' ∧ response = response' := by
  cases h with
  | create hcreate =>
      cases h' with
      | create hcreate' =>
          obtain ⟨rfl, rfl⟩ := Prod.mk.inj (Except.ok.inj (hcreate.symm.trans hcreate'))
          exact ⟨rfl, rfl, rfl, rfl⟩
  | submitOffer hprofile hrequest hpending hupsert =>
      cases h' with
      | submitOffer hprofile' hrequest' hpending' hupsert' =>
          obtain rfl := Option.some.inj (hprofile.symm.trans hprofile')
          obtain ⟨rfl, rfl⟩ := Prod.mk.inj (Except.ok.inj (hupsert.symm.trans hupsert'))
          exact ⟨rfl, rfl, rfl, rfl⟩
  | acceptOffer hoffer hrider hpending hbatch =>
      cases h' with
      | acceptOffer hoffer' hrider' hpending' hbatch' =>
          obtain rfl := Option.some.inj (hoffer.symm.trans hoffer')
          obtain ⟨rfl, rfl⟩ := Prod.mk.inj (Except.ok.inj (hbatch.symm.trans hbatch'))
          exact ⟨rfl, rfl, rfl, rfl⟩

section Calls
variable {cfg : Config} {c : Negotiation} {n : Nat} {i : Invocation} {w w' : RideWorld}
variable {refusals steps : List Bool} {response : Except String Unit}
variable {r : Except ServiceError Unit × RideWorld}

/-- A call that throws before it has written anything. -/
private theorem announced_of_early {e : ServiceError} (hsame : tablesOf w' = tablesOf w)
    (h : ∀ m db steps response, c.Writes cfg w.shared m db steps response →
      Call.Refused (List.replicate m true) refusals) :
    Announced c n w (.error e, w') ↔ ¬ c.CutShort cfg w.shared refusals := by
  have hrides : (tablesOf w).SameRides (tablesOf w') := by
    rw [hsame]
    exact ⟨rfl, rfl, rfl⟩
  refine iff_of_true ⟨fun _ _ => hrides, fun hchanged => absurd hrides hchanged⟩ ?_
  rintro ⟨m, db, steps, response, hw, hspared, -⟩
  exact hspared (h m db steps response hw)

/-- A call left the tables of `w` alone; it threw if one of the marked steps was refused
or its response could not be made, and else returned with an event emitted that has the
property. -/
structure Concluded (announces : DomainEvent → Prop) (response : Except String Unit) (n : Nat)
    (w : RideWorld) (steps refusals : List Bool)
    (r : Except ServiceError Unit × RideWorld) : Prop where
  tables : tablesOf r.2 = tablesOf w
  throws : Call.Refused steps refusals ∨ response ≠ .ok () → ∃ e, r.1 = .error e
  returns : ¬ (Call.Refused steps refusals ∨ response ≠ .ok ()) →
    r.1 = .ok () ∧ ∃ ev, announces ev ∧ .emit ev ∈ executed n r.2.trace

/-- So it does from `w` on, whatever is refused. -/
def Concludes (cfg : Config) (n : Nat) (i : Invocation) (announces : DomainEvent → Prop)
    (response : Except String Unit) (steps : List Bool) (c : RideCall Unit) (w : RideWorld) :
    Prop :=
  ∀ refusals, Concluded announces response n w steps refusals
    (c.eval (rideSystem cfg) n i refusals w)

/-- A call that has committed its write and has the steps left that it has. -/
private theorem announced_of_written {m : Nat} {call : RideCall Unit}
    (hw : c.Writes cfg w.shared m (tablesOf w') steps response)
    (hspared : ¬ Call.Refused (List.replicate m true) refusals)
    (h : Concludes cfg n i c.Announces response steps call w') :
    Announced c n w (call.eval (rideSystem cfg) n i (refusals.drop m) w') ↔
      ¬ c.CutShort cfg w.shared refusals := by
  obtain ⟨htables, hthrows, hreturns⟩ := h (refusals.drop m)
  have hcut : c.CutShort cfg w.shared refusals ↔ ¬ (tablesOf w).SameRides (tablesOf w') ∧
      (Call.Refused steps (refusals.drop m) ∨ response ≠ .ok ()) := by
    constructor
    · rintro ⟨m', db, steps', response', hw', -, hchanged, hshort⟩
      obtain ⟨rfl, rfl, rfl, rfl⟩ := hw.unique hw'
      exact ⟨hchanged, hshort⟩
    · rintro ⟨hchanged, hshort⟩
      exact ⟨m, _, steps, response, hw, hspared, hchanged, hshort⟩
  rw [hcut]
  constructor
  · rintro hannounced ⟨hchanged, hshort⟩
    obtain ⟨e, he⟩ := hthrows hshort
    have := hannounced.unchanged e he
    rw [htables] at this
    exact hchanged this
  · intro hnot
    by_cases hshort : Call.Refused steps (refusals.drop m) ∨ response ≠ .ok ()
    · have hsame : (tablesOf w).SameRides (tablesOf w') := by
        by_contra hchanged
        exact hnot ⟨hchanged, hshort⟩
      rw [← htables] at hsame
      exact ⟨fun _ _ => hsame, fun hchanged => absurd hsame hchanged⟩
    · obtain ⟨hok, hemitted⟩ := hreturns hshort
      refine ⟨fun e he => ?_, fun _ => ⟨hok, hemitted⟩⟩
      cases hok.symm.trans he

section Steps
variable {announces : DomainEvent → Prop} {o : Stmt} {b : o.Res} {s : Backend}

/-- What comes before the rest is one more step, which leaves the tables alone. -/
private theorem Concluded.cons {marked : Bool}
    (h : Concluded announces response n w' steps refusals.tail r)
    (htables : tablesOf w' = tablesOf w) (hgo : marked = true → refusals.headD false = false) :
    Concluded announces response n w (marked :: steps) refusals r := by
  have hiff : Call.Refused (marked :: steps) refusals ↔ Call.Refused steps refusals.tail := by
    rw [Call.refused_cons, or_iff_right]
    rintro ⟨hmarked, hrefused⟩
    cases hrefused.symm.trans (hgo hmarked)
  refine ⟨h.tables.trans htables, fun hshort => h.throws ?_, fun hnot => h.returns ?_⟩
  · exact hshort.imp_left hiff.mp
  · exact fun hshort => hnot (hshort.imp_left hiff.mpr)

/-- The event is emitted, and the response is made or throws. -/
theorem concludes_emit {ev : DomainEvent} {call : RideCall Unit} (hev : announces ev)
    (hcall : call = respond response) :
    Concludes cfg n i announces response [] (perform (.emit ev) >>= fun _ => call) w := by
  subst hcall
  intro refusals
  rw [Call.eval_step (Bool.and_false _) rfl]
  cases response with
  | error message =>
      exact ⟨rfl, fun _ => ⟨_, rfl⟩, fun hnot => absurd (Or.inr nofun) hnot⟩
  | ok _ =>
      refine ⟨rfl, fun hshort => ?_, fun _ =>
        ⟨rfl, ev, hev, mem_executed_commit w n i (.emit ev) _⟩⟩
      rcases hshort with hrefused | hthrown
      · cases hrefused
      · exact absurd rfl hthrown

/-- A step that is refused or goes through; refused, the call is bound to throw. -/
theorem concludes_step {k : Except ServiceError o.Res → RideCall Unit} (hext : o.external = true)
    (hx : (rideSystem cfg).exec o w.shared = .ok (b, s)) (htables : s.tables = tablesOf w)
    (hfail : (k (.error .outage)).Ends (rideSystem cfg) n i
      (fun r w' => tablesOf w' = tablesOf w ∧ ∃ e, r = .error e) w)
    (h : Concludes cfg n i announces response steps (k (.ok b)) (w.commit n i o s)) :
    Concludes cfg n i announces response (true :: steps) (.step o k) w := by
  intro refusals
  cases hr : refusals.headD false with
  | true =>
      have hext : (rideSystem cfg).external o = true := hext
      rw [Call.eval_refused hr hext]
      obtain ⟨hsame, hthrown⟩ := hfail.eval refusals.tail
      exact ⟨hsame, fun _ => hthrown, fun hnot => absurd (Or.inl (Or.inl ⟨rfl, hr⟩)) hnot⟩
  | false =>
      rw [Call.eval_answered (by rw [hr, Bool.false_and]) hx]
      exact (h refusals.tail).cons htables fun _ => hr

/-- A step whose refusal is thrown. -/
theorem concludes_perform_bind {f : o.Res → RideCall Unit} (hext : o.external = true)
    (hx : (rideSystem cfg).exec o w.shared = .ok (b, s)) (htables : s.tables = tablesOf w)
    (h : Concludes cfg n i announces response steps (f b) (w.commit n i o s)) :
    Concludes cfg n i announces response (true :: steps) (perform o >>= f) w :=
  concludes_step hext hx htables ⟨rfl, _, rfl⟩ h

/-- A step whose refusal is caught. -/
theorem concludes_recover_bind {g : ServiceError → o.Res} {f : o.Res → RideCall Unit}
    (hok : ∀ b s, (rideSystem cfg).exec o w.shared = .ok (b, s) →
      s.tables = tablesOf w ∧ Concludes cfg n i announces response steps (f b) (w.commit n i o s))
    (herr : ∀ e, Concludes cfg n i announces response steps (f (g e)) w) :
    Concludes cfg n i announces response (false :: steps)
      ((perform o).recover (fun e => .done (g e)) >>= f) w := by
  intro refusals
  apply Call.eval_recover_bind (P := Concluded announces response n w (false :: steps) refusals)
  · intro b s hx
    obtain ⟨htables, h⟩ := hok b s hx
    exact (h refusals.tail).cons htables nofun
  · exact fun e => (herr e refusals.tail).cons rfl nofun

/-- What the queue has stored for the offers in `ids`. -/
def SameStored (ids : List Id) (jobs jobs' : JobQueue) : Prop :=
  ∀ id ∈ ids, jobs'.getJob (OffersService.offerJobId id) = jobs.getJob (OffersService.offerJobId id)

theorem expirySteps_congr {ids : List Id} {jobs jobs' : JobQueue} (h : SameStored ids jobs jobs') :
    ids.flatMap (expirySteps jobs') = ids.flatMap (expirySteps jobs) := by
  apply List.flatMap_congr
  intro id hid
  unfold expirySteps
  rw [h id hid]

/-- `cancelScheduledExpiry` as a step of a call that goes on with `rest`, or with `fails`
when the job cannot be looked up. -/
def descheduling (offerId : Id) (rest : RideCall Unit) (fails : ServiceError → RideCall Unit) :
    RideCall Unit :=
  .step (.getJob (OffersService.offerJobId offerId)) fun
    | .error e => fails e
    | .ok none => rest
    | .ok (some job) =>
        (perform (.removeJob job.jobId)).recover (fun _ => .done ()) >>= fun _ => rest

theorem cancelScheduledExpiry_bind (offerId : Id) (f : Unit → RideCall Unit) :
    OffersService.cancelScheduledExpiry offerId >>= f = descheduling offerId (f ()) .fail := by
  refine congrArg (Call.step (σ := rideSignature) _) (funext fun r => ?_)
  rcases r with e | (_ | job) <;> rfl

theorem cancelScheduledExpiry_both (offerId : Id) (d : RideCall Unit) (f : Unit → RideCall Unit) :
    (OffersService.cancelScheduledExpiry offerId).both d >>= f =
      descheduling offerId (d >>= f) fun e =>
        (d.recover fun _ => .done ()) >>= fun _ => Call.fail e >>= f := by
  refine congrArg (Call.step (σ := rideSignature) _) (funext fun r => ?_)
  rcases r with e | (_ | job)
  · exact bind_assoc (m := Call rideSignature ServiceError) _ _ _
  · rfl
  · show ((perform (.removeJob job.jobId)).recover fun _ => .done ()).both d >>= f = _
    rw [Call.recover_done_both (σ := rideSignature) (.removeJob job.jobId) fun _ => ()]
    exact bind_assoc (m := Call rideSignature ServiceError) _ _ _

/-- Descheduling an offer touches no other offer's job. -/
theorem descheduling_concludes {offerId : Id} {others : List Id} {rest : RideCall Unit}
    {fails : ServiceError → RideCall Unit} (hnot : offerId ∉ others)
    (hfail : (fails .outage).Ends (rideSystem cfg) n i
      (fun r w' => tablesOf w' = tablesOf w ∧ ∃ e, r = .error e) w)
    (h : ∀ w', tablesOf w' = tablesOf w → SameStored others w.shared.jobs w'.shared.jobs →
      Concludes cfg n i announces response steps rest w') :
    Concludes cfg n i announces response (expirySteps w.shared.jobs offerId ++ steps)
      (descheduling offerId rest fails) w := by
  unfold expirySteps
  cases hget : w.shared.jobs.getJob (OffersService.offerJobId offerId) with
  | none =>
      have hx : (rideSystem cfg).exec (.getJob (OffersService.offerJobId offerId)) w.shared =
        .ok (none, w.shared) := congrArg (fun j => Except.ok (j, w.shared)) hget
      exact concludes_step rfl hx rfl hfail (h _ rfl fun _ _ => rfl)
  | some job =>
      have hx : (rideSystem cfg).exec (.getJob (OffersService.offerJobId offerId)) w.shared =
        .ok (some job, w.shared) := congrArg (fun j => Except.ok (j, w.shared)) hget
      apply concludes_step rfl hx rfl hfail
      apply concludes_recover_bind
      · intro _ s hremove
        obtain ⟨hjobs, htables, -⟩ := Backend.exec_removeJob hremove
        refine ⟨htables, h _ htables fun id hid => ?_⟩
        apply JobQueue.getJob_remove_ne hjobs
        rw [(JobQueue.getJob_some hget).2]
        intro hjob
        exact hnot ((String.append_right_inj "offer-").mp hjob ▸ hid)
      · exact fun _ => h _ rfl fun _ _ => rfl

/-- A call that only reads the tables may run before the refusal is thrown. -/
theorem fails_after {d : RideCall Unit} {f : Unit → RideCall Unit} (e : ServiceError)
    (hd : d.Uses fun o : Stmt => o.writesTables = false) :
    ((d.recover fun _ => .done ()) >>= fun _ => Call.fail e >>= f).Ends (rideSystem cfg) n i
      (fun r w' => tablesOf w' = tablesOf w ∧ ∃ e, r = .error e) w := by
  have hquiet : d.Ends (rideSystem cfg) n i (fun _ w' => tablesOf w' = tablesOf w) w :=
    Call.Ends.of_uses (fun _ _ _ _ ho hw hx => ((Backend.frame hx).tables ho).trans hw) hd rfl
  apply Call.Ends.bind
  apply Call.Ends.recover
  apply hquiet.mono
  rintro (e' | _) w' hw' <;> exact ⟨hw', e, rfl⟩

theorem all_cancelScheduledExpiry_concludes {ids : List Id} {f : Unit → RideCall Unit}
    (hids : ids.Nodup)
    (h : ∀ w', tablesOf w' = tablesOf w → Concludes cfg n i announces response steps (f ()) w') :
    Concludes cfg n i announces response (ids.flatMap (expirySteps w.shared.jobs) ++ steps)
      (Call.all ids OffersService.cancelScheduledExpiry >>= f) w := by
  induction ids generalizing w with
  | nil => exact h w rfl
  | cons id ids ih =>
      obtain ⟨hnot, hids⟩ := List.nodup_cons.mp hids
      have hothers : (Call.all ids OffersService.cancelScheduledExpiry).Uses
          fun o : Stmt => o.writesTables = false :=
        Call.Uses.all fun id _ =>
          OffersService.cancelScheduledExpiry_uses (fun _ => rfl) (fun _ => rfl) id
      rw [List.flatMap_cons, List.append_assoc, Call.all, cancelScheduledExpiry_both]
      apply descheduling_concludes hnot (fails_after _ hothers)
      · intro w' htables hstored
        rw [← expirySteps_congr hstored]
        exact ih hids fun w'' htables' => h w'' (htables'.trans htables)

end Steps

/-- The offers that an acceptance takes off the queue are pairwise different. -/
theorem acceptedIds_nodup (db : RideTables) (rideRequestId offerId : Id) :
    (offerId :: (db.findOtherPendingOffers rideRequestId offerId).map
      fun o => o.offer.id).Nodup := by
  have hsub (l : List RideOffer) : ((l.filterMap db.withDriver).map fun o => o.offer.id).Sublist
      (l.map fun o => o.id) := by
    induction l with
    | nil => exact List.Sublist.refl _
    | cons o l ih =>
        rw [List.filterMap_cons]
        split
        · exact ih.cons _
        · next x hx =>
            obtain ⟨p, -, rfl⟩ := Option.map_eq_some_iff.mp hx
            exact ih.cons_cons _
  unfold RideTables.findOtherPendingOffers
  apply List.nodup_cons.mpr
  constructor
  · intro h
    obtain ⟨o, ho, hid⟩ := List.mem_map.mp ((hsub _).subset h)
    have := of_decide_eq_true (Table.mem_findMany.mp ho).2
    exact this.2.2 hid
  · apply List.Nodup.sublist (hsub _)
    apply List.pairwise_map.mpr
    apply (db.rideOffers.distinct.filter _).imp
    rintro a b hab hid
    exact hab ⟨RideOfferKey.id a.id, by simp [Keyed.keys], by simp [Keyed.keys, hid]⟩

/-- The outcome `r` of a call is as announced unless the call was cut short. -/
private abbrev Verdict (cfg : Config) (c : Negotiation) (n : Nat) (w : RideWorld)
    (refusals : List Bool) (r : Except ServiceError Unit × RideWorld) : Prop :=
  Announced c n w r ↔ ¬ c.CutShort cfg w.shared refusals

/-- A query before the write: refused, it ends the call with nothing written. -/
private theorem verdict_of_query {o : Stmt} {b : o.Res} {f : o.Res → RideCall Unit}
    {rest : List Bool} (hext : o.external = true)
    (hx : (rideSystem cfg).exec o w'.shared = .ok (b, w'.shared))
    (hsame : tablesOf w' = tablesOf w)
    (hcut : rest.headD false = true → ∀ m db steps response,
      c.Writes cfg w.shared m db steps response → Call.Refused (List.replicate m true) refusals)
    (hgo : rest.headD false = false → Verdict cfg c n w refusals
      ((f b).eval (rideSystem cfg) n i rest.tail (w'.commit n i o w'.shared))) :
    Verdict cfg c n w refusals ((perform o >>= f).eval (rideSystem cfg) n i rest w') := by
  apply Call.eval_perform_bind (P := Verdict cfg c n w refusals) hext
  · exact fun hr => announced_of_early hsame (hcut hr)
  · intro hr b' s hx'
    obtain ⟨rfl, rfl⟩ := Prod.mk.inj (Except.ok.inj (hx.symm.trans hx'))
    exact hgo hr
  · intro e he
    cases hx.symm.trans he

private theorem create_verdict (riderId : Id) (dto : RideRequestsService.CreateRideRequestDto)
    (uuid : Id) :
    Verdict cfg (.create riderId dto uuid) n w refusals
      ((RideRequestsService.create cfg riderId dto uuid).void.eval (rideSystem cfg) n i refusals
        w) := by
  simp only [RideRequestsService.create, Call.void_eq, bind_assoc]
  apply Call.eval_perform_bind (P := Verdict cfg _ n w refusals) rfl
  · intro hr
    refine announced_of_early rfl ?_
    rintro m db steps response ⟨⟩
    exact Or.inl ⟨rfl, hr⟩
  · intro hr r s hx
    have hcreate := (Backend.onTables_ok (fun db => db.createRideRequest _) hx).1
    obtain ⟨rfl, -⟩ := RideTables.createRideRequest_effect hcreate
    rw [← List.drop_one]
    apply announced_of_written (Negotiation.Writes.create hcreate)
    · exact Call.not_refused_cons hr (Call.not_refused_nil _)
    · apply concludes_perform_bind rfl rfl rfl
      refine concludes_emit rfl ?_
      generalize RideRequestResponseDto.from cfg.plainToInstance _ = response
      cases response <;> rfl
  · intro e hx
    refine announced_of_early rfl ?_
    rintro m db steps response ⟨hcreate⟩
    cases hx.symm.trans (Backend.onTables_of_ok (f := fun db => db.createRideRequest _) hcreate)

private theorem submitOffer_verdict (driverUserId rideRequestId : Id) (offeredFare : Fare)
    (uuid : Id) :
    Verdict cfg (.submitOffer driverUserId rideRequestId offeredFare uuid) n w refusals
      ((OffersService.submitOffer cfg driverUserId rideRequestId offeredFare uuid).void.eval
        (rideSystem cfg) n i refusals w) := by
  simp only [OffersService.submitOffer, OffersService.scheduleExpiry, Call.void_eq, bind_assoc]
  refine verdict_of_query rfl rfl rfl ?_ ?_
  · rintro hr₁ m db steps response ⟨⟩
    exact Or.inl ⟨rfl, hr₁⟩
  intro hr₁
  apply Call.eval_required_bind (P := Verdict cfg _ n w refusals)
  case hnone =>
    intro hnone
    refine announced_of_early rfl ?_
    intro m db steps response hw
    cases hw with
    | submitOffer hprofile => cases hnone.symm.trans hprofile
  intro driverProfile hprofile
  refine verdict_of_query rfl rfl rfl ?_ ?_
  · rintro hr₂ m db steps response ⟨⟩
    exact Or.inr (Or.inl ⟨rfl, hr₂⟩)
  intro hr₂
  apply Call.eval_required_bind (P := Verdict cfg _ n w refusals)
  case hnone =>
    intro hnone
    refine announced_of_early rfl ?_
    intro m db steps response hw
    cases hw with
    | submitOffer _ hrequest => cases hnone.symm.trans hrequest
  intro rideRequest hrequest
  apply Call.eval_ensure_bind (P := Verdict cfg _ n w refusals)
  case hneg =>
    intro hnot
    refine announced_of_early rfl ?_
    intro m db steps response hw
    cases hw with
    | submitOffer _ hrequest' hpending =>
        obtain rfl := Option.some.inj (hrequest.symm.trans hrequest')
        exact absurd hpending hnot
  intro hpending
  apply Call.eval_perform_bind (P := Verdict cfg _ n w refusals) rfl
  case herr =>
    intro e hx
    refine announced_of_early rfl ?_
    intro m db steps response hw
    cases hw with
    | submitOffer hprofile' _ _ hupsert =>
        obtain rfl := Option.some.inj (hprofile.symm.trans hprofile')
        cases hx.symm.trans (Backend.onTables_of_ok (f := fun db => db.upsertOffer _ _ _ _) hupsert)
  · intro hr₃
    refine announced_of_early rfl ?_
    rintro m db steps response ⟨⟩
    exact Or.inr (Or.inr (Or.inl ⟨rfl, hr₃⟩))
  intro hr₃ offer s hx
  have hupsert : w.shared.tables.upsertOffer rideRequestId driverProfile.id offeredFare uuid =
      .ok (offer, s.tables) := (Backend.onTables_ok (fun db => db.upsertOffer _ _ _ _) hx).1
  have hjobs : s.jobs = w.shared.jobs := (Backend.frame hx).jobs rfl
  have hrest : refusals.tail.tail.tail = refusals.drop 3 := by
    simp only [← List.drop_one, List.drop_drop]
  rw [hrest]
  apply announced_of_written (Negotiation.Writes.submitOffer hprofile hrequest hpending hupsert)
  · exact Call.not_refused_cons hr₁ (Call.not_refused_cons hr₂
      (Call.not_refused_cons hr₃ (Call.not_refused_nil _)))
  · rw [← hjobs]
    rw [cancelScheduledExpiry_bind]
    refine descheduling_concludes List.not_mem_nil ⟨rfl, .outage, rfl⟩ fun w' _ _ => ?_
    refine concludes_perform_bind rfl rfl rfl ?_
    exact concludes_emit (RideTables.upsertOffer_effect hupsert).result_on.1 rfl

private theorem acceptOffer_verdict (riderId offerId uuid : Id) :
    Verdict cfg (.acceptOffer riderId offerId uuid) n w refusals
      ((OffersService.acceptOffer riderId offerId uuid).void.eval (rideSystem cfg) n i refusals
        w) := by
  simp only [OffersService.acceptOffer, Call.void_eq, bind_assoc]
  refine verdict_of_query rfl rfl rfl ?_ ?_
  · rintro hr₁ m db steps response ⟨⟩
    exact Or.inl ⟨rfl, hr₁⟩
  intro hr₁
  apply Call.eval_required_bind (P := Verdict cfg _ n w refusals)
  case hnone =>
    intro hnone
    refine announced_of_early rfl ?_
    intro m db steps response hw
    cases hw with
    | acceptOffer hoffer => cases hnone.symm.trans hoffer
  intro offer hoffer
  apply Call.eval_ensure_bind (P := Verdict cfg _ n w refusals)
  case hneg =>
    intro hnot
    refine announced_of_early rfl ?_
    intro m db steps response hw
    cases hw with
    | acceptOffer hoffer' hrider =>
        obtain rfl := Option.some.inj (hoffer.symm.trans hoffer')
        exact absurd hrider hnot
  intro hrider
  apply Call.eval_ensure_bind (P := Verdict cfg _ n w refusals)
  case hneg =>
    intro hnot
    refine announced_of_early rfl ?_
    intro m db steps response hw
    cases hw with
    | acceptOffer hoffer' _ hpending =>
        obtain rfl := Option.some.inj (hoffer.symm.trans hoffer')
        exact absurd hpending hnot
  intro hpending
  refine verdict_of_query rfl rfl rfl ?_ ?_
  · rintro hr₂ m db steps response ⟨⟩
    exact Or.inr (Or.inl ⟨rfl, hr₂⟩)
  intro hr₂
  apply Call.eval_perform_bind (P := Verdict cfg _ n w refusals) rfl
  case herr =>
    intro e hx
    refine announced_of_early rfl ?_
    intro m db steps response hw
    cases hw with
    | acceptOffer hoffer' _ _ hbatch =>
        obtain rfl := Option.some.inj (hoffer.symm.trans hoffer')
        cases hx.symm.trans (Backend.onTables_of_ok (f := fun db => db.acceptBatch _) hbatch)
  · intro hr₃
    refine announced_of_early rfl ?_
    rintro m db steps response ⟨⟩
    exact Or.inr (Or.inr (Or.inl ⟨rfl, hr₃⟩))
  intro hr₃ trip s hx
  have hbatch : w.shared.tables.acceptBatch
      { offerId := offer.offer.id
        rideRequestId := offer.offer.rideRequestId
        driverUserId := offer.driverUserId
        riderId
        offeredFare := offer.offer.offeredFare
        tripId := uuid } = .ok (trip, s.tables) :=
    (Backend.onTables_ok (fun db => db.acceptBatch _) hx).1
  have hjobs : s.jobs = w.shared.jobs := (Backend.frame hx).jobs rfl
  have hrest : refusals.tail.tail.tail = refusals.drop 3 := by
    simp only [← List.drop_one, List.drop_drop]
  rw [hrest]
  apply announced_of_written (Negotiation.Writes.acceptOffer hoffer hrider hpending hbatch)
  · exact Call.not_refused_cons hr₁ (Call.not_refused_cons hr₂
      (Call.not_refused_cons hr₃ (Call.not_refused_nil _)))
  · rw [← hjobs, ← List.append_nil (List.flatMap _ _)]
    apply all_cancelScheduledExpiry_concludes (acceptedIds_nodup _ _ _)
    intro w' _
    have htrip := congrArg Trip.id (RideTables.acceptBatch_effect hbatch).trip_eq
    exact concludes_emit ⟨htrip, (RideTables.findOfferWithRequest_some hoffer).2.1⟩ rfl

end Calls

/-- In every state that any interleaving reaches, and whichever statements are refused, a
call that throws leaves the rides alone and one that changes them announces it and
returns, if and only if no step after the change is refused that the call does not catch
and the response of a creation can be made. -/
theorem announced_iff (cfg : Config) (ms : List RideMove) (c : Negotiation)
    (refusals : List Bool) :
    let p := ridePool.run (rideSystem cfg) ms
    Announced c p.running.length p.world
        (p.reply (rideSystem cfg) (c.invocation, refusals),
          (p.serve (rideSystem cfg) (c.invocation, refusals)).world) ↔
      ¬ c.CutShort cfg p.world.shared refusals := by
  intro p
  cases c with
  | create riderId dto uuid => exact create_verdict riderId dto uuid
  | submitOffer driverUserId rideRequestId offeredFare uuid =>
      exact submitOffer_verdict driverUserId rideRequestId offeredFare uuid
  | acceptOffer riderId offerId uuid => exact acceptOffer_verdict riderId offerId uuid

/-- A rider creates a request and the query for drivers nearby fails: the rider is told so,
the request is there, and no driver hears of it. -/
theorem not_announced_unansweredQuery :
    let p := ridePool.run (rideSystem .default) []
    let q := (Invocation.create "rider" ⟨6, 3, 7, 4, 1500⟩ "request", [false, true])
    p.reply (rideSystem .default) q = .error .outage ∧
      (tablesOf (p.serve (rideSystem .default) q).world).rideRequests.rows ≠
        (tablesOf p.world).rideRequests.rows ∧
      ¬ Announced (.create "rider" ⟨6, 3, 7, 4, 1500⟩ "request") p.running.length p.world
        (p.reply (rideSystem .default) q, (p.serve (rideSystem .default) q).world) := by
  intro p q
  have hreply : p.reply (rideSystem .default) q = .error .outage := by decide +kernel
  have hrows : (tablesOf (p.serve (rideSystem .default) q).world).rideRequests.rows ≠
      (tablesOf p.world).rideRequests.rows := by decide +kernel
  refine ⟨hreply, hrows, fun h => ?_⟩
  exact hrows (congrArg Table.rows (h.unchanged _ hreply).1)

end Reedr
