import Reedr.Library.Obligation
import Reedr.Matching.NearbyDrivers
import Reedr.Ride.History

/-!
# Who hears of a new ride request

`create` inserts the request, asks for drivers nearby and announces the request
to them: three steps, between which drivers come, go and move. The drivers told
are those who were nearest when the call asked.

## Implementation notes

An announcement is traced back to the query of its own call by what that call
remembers; that nobody else announces the request is due to its unique id.
-/

namespace Reedr
open Relational Interleaving Sql

section Nearest

namespace MatchingService
variable (m : MatchingService Coord) (lat lng : Coord)

variable {m lat lng}

variable (m lat lng)

end MatchingService

end Nearest

/-- The row that `create` inserts. -/
def RideRequestsService.CreateRideRequestDto.rideRequest (dto : CreateRideRequestDto)
    (riderId uuid : Id) : RideRequest :=
  { id := uuid, riderId, pickupLat := dto.pickupLat, pickupLng := dto.pickupLng,
    dropoffLat := dto.dropoffLat, dropoffLng := dto.dropoffLng,
    suggestedFare := dto.suggestedFare }

/-- The payload of `ride:request:new`. -/
def RideRequest.announcement (r : RideRequest) : Message :=
  .rideRequestNew r.id r.pickupLat r.pickupLng r.dropoffLat r.dropoffLng r.suggestedFare

/-- The new request that a message announces. -/
def Message.announces? : Message → Option Id
  | .rideRequestNew id _ _ _ _ _ => some id
  | _ => none

namespace Gateway

/-- What has been announced of a request, and to whom. -/
def announced (g : Gateway) (rideRequestId : Id) : List (Id × Message) :=
  g.sent.filter fun x => x.2.announces? = some rideRequestId

theorem announced_append {g g' : Gateway} {l : List (Id × Message)} (h : g'.sent = g.sent ++ l)
    (id : Id) :
    g'.announced id = g.announced id ++ l.filter fun x => x.2.announces? = some id := by
  unfold announced
  rw [h, List.filter_append]

variable (haversineMeters : Coord → Coord → Coord → Coord → Rat)

/-- A new request is announced once to each of the users. -/
theorem announced_created (g : Gateway) (r : RideRequest) (userIds : List Id) (id : Id) :
    (g.handle haversineMeters (.rideRequestCreated r userIds)).announced id =
      g.announced id ++
        if r.id = id then userIds.map fun userId => (userId, r.announcement) else [] := by
  rw [announced_append (l := userIds.map fun userId => (userId, r.announcement))
    (by simp only [handle, sendAll_eq]; rfl)]
  congr 1
  rw [List.filter_map]
  split
  · next hid =>
      rw [List.filter_eq_self.mpr]
      exact fun _ _ => decide_eq_true (congrArg some hid)
  · next hid =>
      rw [List.filter_eq_nil_iff.mpr, List.map_nil]
      exact fun _ _ h => hid (Option.some.inj (of_decide_eq_true h))

/-- No other event announces a request. -/
theorem announced_handle (g : Gateway) {ev : DomainEvent}
    (hev : ∀ r userIds, ev ≠ .rideRequestCreated r userIds) (id : Id) :
    (g.handle haversineMeters ev).announced id = g.announced id := by
  cases ev with
  | rideRequestCreated r userIds => exact absurd rfl (hev r userIds)
  | driverOnlineStatusChanged d on lat lng =>
      cases on <;> cases lat <;> cases lng <;>
        simp [handle, sendAll_eq, announced, List.filter_map, Message.announces?]
  | _ =>
      simp [handle, setActiveTripRider, send, sendAll_eq, announced, List.filter_map,
        Message.announces?]

end Gateway

/-- Statements that create a ride request or announce one. -/
def Stmt.publishes : Stmt → Bool
  | .createRideRequest _ | .emit (.rideRequestCreated _ _) => true
  | .send _ m => m.announces?.isSome
  | _ => false

theorem Backend.exec_announced {cfg : Config} {o : Stmt} {b : o.Res} {s s' : Backend}
    (hx : Backend.exec cfg o s = .ok (b, s'))
    (ho : ∀ r userIds, o ≠ .emit (.rideRequestCreated r userIds))
    (hsend : ∀ userId m, o = .send userId m → m.announces? = none) (id : Id) :
    s'.gateway.announced id = s.gateway.announced id := by
  cases o with
  | emit ev =>
      cases hx
      exact Gateway.announced_handle _ _ (fun r userIds h => ho r userIds (h ▸ rfl)) id
  | send userId m =>
      cases hx
      rw [Gateway.announced_append (l := [(userId, m)]) rfl]
      simp [hsend userId m rfl]
  | consumeLocationUpdate userId =>
      cases hx
      rfl
  | _ => rw [(exec_frame hx).gateway rfl]

section Calls
variable {cfg : Config}

/-- What a call remembers when it creates or announces a request: an announcement
goes to the drivers its own query has found. -/
def CreateFact (cfg : Config) : Invocation → List (Stmt × Backend) → Stmt → Prop
  | .create riderId dto uuid, _, .createRideRequest r => r = dto.rideRequest riderId uuid
  | .create riderId dto uuid, l, .emit (.rideRequestCreated r userIds) =>
      r = dto.rideRequest riderId uuid ∧ ∃ s₀ s₁,
        l = [(.createRideRequest r, s₀), (.findNearbyDrivers r.pickupLat r.pickupLng, s₁)] ∧
        userIds = (cfg.findNearbyDrivers s₁.tables.driverProfiles r.pickupLat r.pickupLng).map
          fun d => d.userId
  | _, _, o => o.publishes = false

end Calls

/-- What has been announced comes from one call: it created the request, and it
told the drivers its query had found, each once. -/
structure Publicised (cfg : Config) (w : RideWorld) : Prop where
  stored : ∀ c ∈ w.trace, ∀ r, c.op = .createRideRequest r →
    ∃ q ∈ (tablesOf w).rideRequests, q.identity = r.identity
  once : ∀ c ∈ w.trace, ∀ d ∈ w.trace, ∀ r q, c.op = .createRideRequest r →
    d.op = .createRideRequest q → r.id = q.id → c.call = d.call
  sourced : ∀ c ∈ w.trace, ∀ r userIds, c.op = .emit (.rideRequestCreated r userIds) →
    (∃ riderId dto, c.inv = .create riderId dto r.id ∧ r = dto.rideRequest riderId r.id) ∧
    (∃ d ∈ w.trace, d.call = c.call ∧ d.op = .createRideRequest r) ∧
    ∃ q ∈ w.trace, q.call = c.call ∧ q.op = .findNearbyDrivers r.pickupLat r.pickupLng ∧
      userIds = (cfg.findNearbyDrivers q.before.tables.driverProfiles r.pickupLat
        r.pickupLng).map fun d => d.userId
  announced : ∀ c ∈ w.trace, ∀ r userIds, c.op = .emit (.rideRequestCreated r userIds) →
    w.shared.gateway.announced r.id = userIds.map fun userId => (userId, r.announcement)
  silent : ∀ id, w.shared.gateway.announced id ≠ [] → ∃ c ∈ w.trace, ∃ r userIds,
    c.op = .emit (.rideRequestCreated r userIds) ∧ r.id = id

section Keep
variable {cfg : Config} {w : RideWorld} {n : Nat} {i : Invocation} {o : Stmt} {b : o.Res}
variable {s : Backend}

/-- Before a call announces its request, nobody has. -/
private theorem Publicised.unannounced (h : Publicised cfg w) {r : RideRequest} {s₀ s₁ : Backend}
    {lat lng : Coord}
    (hl : memory n w.trace = [(.createRideRequest r, s₀), (.findNearbyDrivers lat lng, s₁)])
    {c : RideCommit} (hc : c ∈ w.trace) {q : RideRequest} {userIds : List Id}
    (hop : c.op = .emit (.rideRequestCreated q userIds)) : q.id ≠ r.id := by
  intro hid
  obtain ⟨-, ⟨d, hd, hdc, hdop⟩, -⟩ := h.sourced c hc q userIds hop
  obtain ⟨e, he, hen, heop⟩ := mem_memory.mp
    (hl ▸ List.mem_cons_self : (Stmt.createRideRequest r, s₀) ∈ memory n w.trace)
  -- Both have created the request, so they are one call, which has not announced it yet.
  have hcall : c.call = n :=
    hdc.symm.trans ((h.once d hd e he q r hdop (congrArg Prod.fst heop) hid).trans hen)
  have hmem : (c.op, c.before) ∈ memory n w.trace := mem_memory.mpr ⟨c, hc, hcall, rfl⟩
  rw [hl, hop] at hmem
  simp at hmem

private theorem createFact_emit {l : List (Stmt × Backend)} {r : RideRequest}
    {userIds : List Id} (h : CreateFact cfg i l (.emit (.rideRequestCreated r userIds))) :
    (∃ riderId dto, i = .create riderId dto r.id ∧ r = dto.rideRequest riderId r.id) ∧
      ∃ s₀ s₁, l = [(.createRideRequest r, s₀), (.findNearbyDrivers r.pickupLat r.pickupLng, s₁)] ∧
        userIds = (cfg.findNearbyDrivers s₁.tables.driverProfiles r.pickupLat r.pickupLng).map
          fun d => d.userId := by
  cases i with
  | create riderId dto uuid =>
      obtain ⟨rfl, hl⟩ := h
      exact ⟨⟨riderId, dto, rfl, rfl⟩, hl⟩
  | _ => cases h

private theorem createFact_send {l : List (Stmt × Backend)} {userId : Id} {m : Message}
    (h : CreateFact cfg i l (.send userId m)) : m.announces? = none := by
  have hnone : m.announces?.isSome = false := by cases i <;> exact h
  simpa using hnone

theorem Publicised.commit (h : Publicised cfg w) (hJ : CreateFact cfg i (memory n w.trace) o)
    (hx : (rideSystem cfg).exec o w.shared = .ok (b, s)) :
    Publicised cfg (w.commit n i o s) := by
  have hgrows : (tablesOf w).Grows s.tables := .of_wrote (Backend.exec_wrote hx)
  have created {r : RideRequest} (hop : o = .createRideRequest r) :
      RequestCreated r (tablesOf w) s.tables := by
    subst hop
    exact (RideTables.createRideRequest_effect (Backend.onTables_ok
      (fun db => db.createRideRequest r) hx).1).2
  have fresh {r q : RideRequest} {c : RideCommit} (hc : c ∈ w.trace)
      (hcop : c.op = .createRideRequest q) (hop : o = .createRideRequest r) : q.id ≠ r.id := by
    obtain ⟨x, hx, hxq⟩ := h.stored c hc q hcop
    rw [← (RideRequest.identity_eq.mp hxq).1]
    exact (created hop).fresh x hx
  have announces {r : RideRequest} {userIds : List Id}
      (hop : o = .emit (.rideRequestCreated r userIds)) :
      (∀ c ∈ w.trace, ∀ q users, c.op = .emit (.rideRequestCreated q users) → q.id ≠ r.id) ∧
        ∀ id, s.gateway.announced id = w.shared.gateway.announced id ++
          if r.id = id then userIds.map fun userId => (userId, r.announcement) else [] := by
    subst hop
    obtain ⟨-, s₀, s₁, hl, -⟩ := createFact_emit hJ
    refine ⟨fun c hc q users hop => h.unannounced hl hc hop, fun id => ?_⟩
    cases hx
    exact Gateway.announced_created cfg.haversineMeters _ _ _ _
  have quiet (hop : ∀ r userIds, o ≠ .emit (.rideRequestCreated r userIds)) (id : Id) :
      s.gateway.announced id = w.shared.gateway.announced id :=
    Backend.exec_announced hx hop (fun userId m hm => createFact_send (hm ▸ hJ)) id
  constructor
  · intro c hc r hop
    rcases World.mem_commit.mp hc with hc | rfl
    · obtain ⟨q, hq, hqr⟩ := h.stored c hc r hop
      obtain ⟨q', hq', hqq⟩ := hgrows.requests q hq
      exact ⟨q', hq', hqq.trans hqr⟩
    · exact ⟨r, (created hop).requests.mem_new, rfl⟩
  · intro c hc d hd r q hcop hdop hid
    rcases World.mem_commit.mp hc with hc | rfl
    · rcases World.mem_commit.mp hd with hd | rfl
      · exact h.once c hc d hd r q hcop hdop hid
      · exact absurd hid (fresh hc hcop hdop)
    · rcases World.mem_commit.mp hd with hd | rfl
      · exact absurd hid.symm (fresh hd hdop hcop)
      · rfl
  · intro c hc r userIds hop
    rcases World.mem_commit.mp hc with hc | rfl
    · obtain ⟨hinv, ⟨d, hd, hcreated⟩, q, hq, hasked⟩ := h.sourced c hc r userIds hop
      exact ⟨hinv, ⟨d, List.mem_append_left _ hd, hcreated⟩, q, List.mem_append_left _ hq, hasked⟩
    · obtain rfl : o = .emit (.rideRequestCreated r userIds) := hop
      obtain ⟨hinv, s₀, s₁, hl, husers⟩ := createFact_emit hJ
      have recalled {x : Stmt × Backend} (hx : x ∈ memory n w.trace) :
          ∃ d ∈ w.trace, d.call = n ∧ (d.op, d.before) = x := mem_memory.mp hx
      obtain ⟨d, hd, hdn, hdop⟩ := recalled (hl ▸ List.mem_cons_self)
      obtain ⟨q, hq, hqn, hqop⟩ := recalled (hl ▸ List.mem_cons_of_mem _ List.mem_cons_self)
      rw [Prod.mk.injEq] at hdop hqop
      exact ⟨hinv, ⟨d, List.mem_append_left _ hd, hdn, hdop.1⟩, q, List.mem_append_left _ hq, hqn,
        hqop.1, hqop.2 ▸ husers⟩
  · intro c hc r userIds hop
    rw [World.commit_shared]
    rcases World.mem_commit.mp hc with hold | rfl
    · rw [← h.announced c hold r userIds hop]
      by_cases ho : ∃ q users, o = .emit (.rideRequestCreated q users)
      · obtain ⟨q, users, ho⟩ := ho
        obtain ⟨hother, hnow⟩ := announces ho
        rw [hnow, if_neg fun hid => hother c hold r userIds hop hid.symm, List.append_nil]
      · exact quiet (fun q users hq => ho ⟨q, users, hq⟩) r.id
    · obtain ⟨hother, hnow⟩ := announces hop
      have hnone : w.shared.gateway.announced r.id = [] := by
        by_contra hne
        obtain ⟨c, hc, q, users, hcop, hid⟩ := h.silent r.id hne
        exact hother c hc q users hcop hid
      rw [hnow, hnone, if_pos rfl, List.nil_append]
  · intro id hne
    by_cases ho : ∃ q users, o = .emit (.rideRequestCreated q users) ∧ q.id = id
    · obtain ⟨q, users, hop, hid⟩ := ho
      exact ⟨⟨n, i, o, w.shared⟩, List.mem_append_right _ (List.mem_singleton_self _), q, users,
        hop, hid⟩
    · have hsame : s.gateway.announced id = w.shared.gateway.announced id := by
        by_cases ho' : ∃ q users, o = .emit (.rideRequestCreated q users)
        · obtain ⟨q, users, hop⟩ := ho'
          rw [(announces hop).2, if_neg fun hid => ho ⟨q, users, hop, hid⟩, List.append_nil]
        · exact quiet (fun q users hq => ho' ⟨q, users, hq⟩) id
      obtain ⟨c, hc, hrest⟩ := h.silent id (hsame ▸ hne)
      exact ⟨c, List.mem_append_left _ hc, hrest⟩

end Keep

end Reedr
