import Mathlib.Data.List.Nodup
import Reedr.App.Sockets
import Reedr.Library.Obligation

/-!
# What arrives at a socket

A socket has received what went to the room of its user from the moment it joined
until it closed, no more and no less, and it has joined by a token of its own that
was valid. The application counts the sockets of each user correctly.
-/

namespace Reedr
open Interleaving

section Calls
open RealtimeGateway Hub
variable {cfg : Config} {verify : String → Millis → Option Id}

/-- What a call remembers about the socket it speaks of. -/
def HubFact (verify : String → Millis → Option Id) (l : List (HubStmt × Hub)) : HubStmt → Prop
  | .app o => o.movesSockets = false
  | .join k userId => ∃ handshake s₀ token s₁,
      l = [(.accept handshake, s₀), (.verifyAsync token, s₁)] ∧ s₀.sockets.length = k ∧
        extractToken handshake = some token ∧ verify token s₁.app.clock = some userId
  | .reject k => ∃ handshake s₀ rest, l = (.accept handshake, s₀) :: rest ∧
      s₀.sockets.length = k ∧ ∀ x ∈ rest, ∃ token, x.1 = .verifyAsync token
  | _ => True

private theorem request_uses (i : AppInvocation) (hi : i.connects = false) :
    (i.code cfg).Uses fun o : AppStmt => o.movesSockets = false := by
  have rating {α : Type} (c : RatingCall α) : (c.embed ratingsInApp).Uses
      fun o : AppStmt => o.movesSockets = false :=
    Call.Uses.embed (fun _ _ => rfl) (Call.Uses.any c)
  have ride {α : Type} (c : RideCall α) : (c.embed rideInApp).Uses
      fun o : AppStmt => o.movesSockets = false :=
    Call.Uses.embed (fun _ _ => rfl) (Call.Uses.any c)
  have guarded {α : Type} (userId : Id) (required : ActiveProfile) (c : RideCall α) :
      (guarded userId required c).void.Uses fun o : AppStmt => o.movesSockets = false := by
    refine Call.Uses.void (Call.Uses.bind ?_ fun _ => ride c)
    exact Call.Uses.bind (Call.Uses.perform rfl) fun _ =>
      Call.Uses.bind (Call.Uses.ensure _ _) fun _ => Call.Uses.ensure _ _
  have limited {limit : WsLimit} {userId : Id} {f : Bool → AppCall Unit}
      (hf : ∀ allowed, (f allowed).Uses fun o : AppStmt => o.movesSockets = false) :
      (issue (.consume limit userId) >>= f).Uses fun o : AppStmt => o.movesSockets = false :=
    Call.Uses.bind (Call.Uses.perform rfl) hf
  have reporting {α : Type} (userId : Id) (c : RideCall α) :
      (reporting userId c).Uses fun o : AppStmt => o.movesSockets = false :=
    Call.Uses.recover (ride _) fun _ => Call.Uses.perform rfl
  cases i with
  | onboarding i => exact Call.Uses.embed (fun _ _ => rfl) (Call.Uses.any _)
  | updateStatus userId isOnline => exact guarded _ _ _
  | updateLocation userId lat lng => exact guarded _ _ _
  | createRideRequest riderId dto uuid => exact guarded _ _ _
  | cancelRideRequest id requester reason => exact ride _
  | startTrip tripId userId => exact guarded _ _ _
  | completeTrip tripId userId => exact guarded _ _ _
  | rateTrip tripId fromUserId dto uuid => exact rating _
  | connect userId => exact nomatch hi
  | disconnect userId => exact nomatch hi
  | offerSubmit userId rideRequestId offeredFare uuid =>
      refine limited fun allowed => ?_
      cases allowed with
      | false => exact Call.Uses.perform rfl
      | true => exact reporting _ _
  | offerAccept userId offerId uuid =>
      refine limited fun allowed => ?_
      cases allowed with
      | false => exact Call.Uses.perform rfl
      | true => exact reporting _ _
  | locationUpdate userId lat lng => exact ride _
  | trackSubscribe matchRadiusKm userId lat lng radiusKm =>
      refine limited fun allowed => ?_
      cases allowed with
      | false => exact Call.Uses.perform rfl
      | true => exact Call.Uses.perform rfl
  | trackUnsubscribe userId => exact Call.Uses.perform rfl
  | goOffline userId => exact ride _
  | runJob jobId => exact ride _
  | evictIdentity userId => exact Call.Uses.perform rfl

private theorem handleConnection_recalls (handshake : Handshake) :
    (Hub.handleConnection handshake).Recalls (hubSystem cfg verify) (fun _ => True)
      (HubFact verify) (fun _ _ => True) [] := by
  refine Call.Recalls.perform_bind trivial (fun s₀ k s _ hx => ?_) fun _ _ => trivial
  obtain rfl : s₀.sockets.length = k := congrArg Prod.fst (Except.ok.inj hx)
  have rejects {l : List (HubStmt × Hub)} (hl : ∃ rest, l = (.accept handshake, s₀) :: rest ∧
      ∀ x ∈ rest, ∃ token, x.1 = .verifyAsync token) :
      (dispatch (.reject s₀.sockets.length)).Recalls (hubSystem cfg verify) (fun _ => True)
        (HubFact verify) (fun _ _ => True) l := by
    obtain ⟨rest, hl, hrest⟩ := hl
    exact ⟨⟨handshake, s₀, rest, hl, rfl, hrest⟩, fun _ _ _ _ _ => trivial, fun _ _ => trivial⟩
  refine Call.Recalls.recover ?_
  have hnone : ∀ x ∈ ([] : List (HubStmt × Hub)), ∃ token, x.1 = .verifyAsync token :=
    fun x hx => absurd hx List.not_mem_nil
  refine Call.Recalls.required_bind (fun token htoken => ?_) fun _ => rejects ⟨[], rfl, hnone⟩
  refine Call.Recalls.perform_bind trivial (fun s₁ userId s _ hverify => ?_) fun _ _ =>
    rejects ⟨[], rfl, hnone⟩
  have hsubject : verify token s₁.app.clock = some userId := by
    have hverify : Hub.exec cfg verify (.verifyAsync token) s₁ = .ok (userId, s) := hverify
    simp only [Hub.exec] at hverify
    split at hverify
    · next subject hs =>
        rw [hs]
        exact congrArg (fun r : Id × Hub => some r.1) (Except.ok.inj hverify)
    · cases hverify
  refine ⟨⟨handshake, s₀, token, s₁, rfl, rfl, htoken, hsubject⟩, fun _ _ _ _ _ => trivial,
    fun e he => ?_⟩
  rcases he with ⟨s, -, hx⟩ | ⟨hx, -⟩
  · cases hx
  · cases hx

private theorem hub_recalls (i : HubInvocation) :
    ((hubSystem cfg verify).code i).Recalls (hubSystem cfg verify) (fun _ => True)
      (HubFact verify) (fun _ _ => True) [] := by
  let P : HubStmt → Prop := fun o => ∃ a : AppStmt, o = .app a ∧ a.movesSockets = false
  have of_app {α : Type} {c : HubCall α} {l : List (HubStmt × Hub)} (h : c.Uses P) :
      c.Recalls (hubSystem cfg verify) (fun _ => True) (HubFact verify) (fun _ _ => True) l := by
    refine Call.Recalls.of_uses (Q := fun _ => True) h ?_ (fun _ _ _ _ _ => trivial)
      (fun _ _ _ => trivial) trivial
    rintro l o - ⟨a, rfl, ha⟩
    exact ha
  cases i with
  | request i hi => exact of_app (Call.Uses.embed (fun o ho => ⟨o, rfl, ho⟩) (request_uses i hi))
  | connect handshake => exact handleConnection_recalls handshake
  | disconnect socket =>
      refine Call.Recalls.perform_bind trivial (fun s left _ _ _ => ?_) fun _ _ => trivial
      apply of_app
      split
      · refine Call.Uses.recover (Call.Uses.embed (fun o ho => ⟨o, rfl, ho⟩) ?_) fun _ => trivial
        exact Call.Uses.embed (fun _ _ => rfl) (Call.Uses.any _)
      · trivial

end Calls

/-- The messages a socket may have received end where it closed, or have no end yet. -/
def Socket.Listens (w : HubWorld) (k : Nat) (c : Socket) (upTo : List (Id × Message)) : Prop :=
  match c.isOpen with
  | true => upTo = w.shared.sent
  | false => ∃ f ∈ w.trace, f.op = .close k ∧
      (∃ c', f.before.sockets[k]? = some c' ∧ c'.isOpen = true) ∧ upTo = f.before.sent

/-- The history of the sockets: each has one call of its own, which alone may have it
join a room, and no message is taken back. -/
structure Handled (verify : String → Millis → Option Id) (w : HubWorld) : Prop where
  accepted : ∀ e ∈ w.trace, ∀ handshake, e.op = .accept handshake →
    ∃ c, w.shared.sockets[e.before.sockets.length]? = some c ∧ c.handshake = handshake
  once : ∀ d ∈ w.trace, ∀ e ∈ w.trace, ∀ handshake handshake', d.op = .accept handshake →
    e.op = .accept handshake' → d.before.sockets.length = e.before.sockets.length →
      d.call = e.call
  owned : ∀ e ∈ w.trace, ∀ k, (e.op = .reject k ∨ ∃ userId, e.op = .join k userId) →
    ∃ a ∈ w.trace, ∃ handshake, a.call = e.call ∧ a.op = .accept handshake ∧
      a.before.sockets.length = k
  verified : ∀ e ∈ w.trace, ∀ k userId, e.op = .join k userId →
    ∃ a ∈ w.trace, ∃ handshake, a.op = .accept handshake ∧ a.before.sockets.length = k ∧
      ∃ token, RealtimeGateway.extractToken handshake = some token ∧
        ∃ v ∈ w.trace, v.op = .verifyAsync token ∧ verify token v.before.app.clock = some userId
  joined : ∀ d ∈ w.trace, ∀ e ∈ w.trace, ∀ k userId userId', d.op = .join k userId →
    e.op = .join k userId' → d = e
  grows : ∀ e ∈ w.trace, e.before.sent.length ≤ w.shared.sent.length

section Handled
variable {cfg : Config} {verify : String → Millis → Option Id} {w : HubWorld} {n : Nat}
  {i : HubInvocation} {o : HubStmt} {b : o.Res} {s : Hub}

/-- Nothing has been done with a socket by others than the call that accepted it. -/
private theorem Handled.untouched (h : Handled verify w) {handshake : Handshake} {s₀ : Hub}
    (hmem : (HubStmt.accept handshake, s₀) ∈ memory n w.trace)
    (hno : ∀ x ∈ memory n w.trace, ¬ (x.1 = .reject s₀.sockets.length ∨
      ∃ userId, x.1 = .join s₀.sockets.length userId)) :
    ∀ e ∈ w.trace, ¬ (e.op = .reject s₀.sockets.length ∨
      ∃ userId, e.op = .join s₀.sockets.length userId) := by
  intro e he hop
  obtain ⟨a, ha, handshake', hcall, haop, hlength⟩ := h.owned e he _ hop
  obtain ⟨d, hd, rfl, hdop⟩ := mem_memory.mp hmem
  have hdop := Prod.mk.inj hdop
  have hsame : a.call = d.call := h.once a ha d hd _ _ haop hdop.1 (hdop.2 ▸ hlength)
  exact hno (e.op, e.before) (mem_memory.mpr ⟨e, he, hcall.symm.trans hsame, rfl⟩) hop

private theorem Handled.commit (h : Handled verify w) (hJ : HubFact verify (memory n w.trace) o)
    (hx : Hub.exec cfg verify o w.shared = .ok (b, s)) : Handled verify (w.commit n i o s) := by
  -- A socket that was accepted before is not the next one.
  have older {e : HubCommit} (he : e ∈ w.trace) {handshake : Handshake}
      (hop : e.op = .accept handshake) :
      e.before.sockets.length < w.shared.sockets.length := by
    obtain ⟨c, hc, -⟩ := h.accepted e he handshake hop
    exact (List.getElem?_eq_some_iff.mp hc).1
  have recalled {x : HubStmt × Hub} (hx : x ∈ memory n w.trace) :
      ∃ e ∈ (w.commit n i o s).trace, e.call = n ∧ e.op = x.1 ∧ e.before = x.2 := by
    obtain ⟨e, he, hcall, rfl⟩ := mem_memory.mp hx
    exact ⟨e, World.mem_commit.mpr (Or.inl he), hcall, rfl, rfl⟩
  constructor
  · intro e he handshake hop
    rcases World.mem_commit.mp he with he | rfl
    · obtain ⟨c, hc, hch⟩ := h.accepted e he handshake hop
      obtain ⟨c', hc', hsame⟩ := Hub.exec_handshake hx hc
      exact ⟨c', hc', hsame.trans hch⟩
    · obtain rfl : o = .accept handshake := hop
      cases hx
      exact ⟨{ handshake }, by simp, rfl⟩
  · intro d hd e he handshake handshake' hdop heop hlength
    rcases World.mem_commit.mp hd with hd | rfl <;> rcases World.mem_commit.mp he with he | rfl
    · exact h.once d hd e he _ _ hdop heop hlength
    · exact absurd hlength (Nat.ne_of_lt (older hd hdop))
    · exact absurd hlength.symm (Nat.ne_of_lt (older he heop))
    · rfl
  · intro e he k hop
    rcases World.mem_commit.mp he with he | rfl
    · obtain ⟨a, ha, hrest⟩ := h.owned e he k hop
      exact ⟨a, World.mem_commit.mpr (Or.inl ha), hrest⟩
    · obtain ⟨handshake, s₀, hmem, hlength⟩ : ∃ handshake s₀,
          (HubStmt.accept handshake, s₀) ∈ memory n w.trace ∧ s₀.sockets.length = k := by
        rcases hop with rfl | ⟨userId, rfl⟩
        · obtain ⟨handshake, s₀, rest, hl, hlength, -⟩ := hJ
          exact ⟨handshake, s₀, hl ▸ List.mem_cons_self, hlength⟩
        · obtain ⟨handshake, s₀, token, s₁, hl, hlength, -⟩ := hJ
          exact ⟨handshake, s₀, hl ▸ List.mem_cons_self, hlength⟩
      obtain ⟨a, ha, hcall, haop, hbefore⟩ := recalled hmem
      exact ⟨a, ha, handshake, hcall, haop, hbefore ▸ hlength⟩
  · intro e he k userId hop
    rcases World.mem_commit.mp he with he | rfl
    · obtain ⟨a, ha, handshake, haop, hlength, token, htoken, v, hv, hrest⟩ :=
        h.verified e he k userId hop
      exact ⟨a, World.mem_commit.mpr (Or.inl ha), handshake, haop, hlength, token, htoken, v,
        World.mem_commit.mpr (Or.inl hv), hrest⟩
    · obtain rfl : o = .join k userId := hop
      obtain ⟨handshake, s₀, token, s₁, hl, hlength, htoken, hverify⟩ := hJ
      obtain ⟨a, ha, -, haop, habefore⟩ := recalled (hl ▸ List.mem_cons_self)
      obtain ⟨v, hv, -, hvop, hvbefore⟩ :=
        recalled (hl ▸ List.mem_cons_of_mem _ List.mem_cons_self)
      exact ⟨a, ha, handshake, haop, habefore ▸ hlength, token, htoken, v, hv, hvop,
        hvbefore ▸ hverify⟩
  · have first {e : HubCommit} (he : e ∈ w.trace) {k : Nat} {userId userId' : Id}
        (heop : e.op = .join k userId) (hop : o = .join k userId') : False := by
      subst hop
      obtain ⟨handshake, s₀, token, s₁, hl, rfl, -⟩ := hJ
      refine h.untouched (hl ▸ List.mem_cons_self) ?_ e he (Or.inr ⟨userId, heop⟩)
      rw [hl]
      simp
    intro d hd e he k userId userId' hdop heop
    rcases World.mem_commit.mp hd with hd | rfl <;> rcases World.mem_commit.mp he with he | rfl
    · exact h.joined d hd e he k userId userId' hdop heop
    · exact (first hd hdop heop).elim
    · exact (first he heop hdop).elim
    · rfl
  · intro e he
    obtain ⟨more, hmore⟩ := Hub.exec_sent hx
    have hle : w.shared.sent.length ≤ s.sent.length := by
      rw [hmore, List.length_append]
      omega
    rcases World.mem_commit.mp he with he | rfl
    · exact (h.grows e he).trans hle
    · exact hle

end Handled

/-- A socket of nobody has received nothing; a socket of a user, what went to the room
of the user since it joined. -/
def Socket.Heard (w : HubWorld) (k : Nat) (c : Socket) : Prop :=
  match c.userId with
  | none => c.inbox = []
  | some userId => ∃ e ∈ w.trace, e.op = .join k userId ∧ ∃ upTo, c.Listens w k upTo ∧
      c.inbox = received userId (upTo.drop e.before.sent.length)

/-- The sockets, the rooms and the count of the application agree with each other
and with the history. -/
structure Wired (w : HubWorld) : Prop where
  heard : ∀ (k : Nat) (c : Socket), w.shared.sockets[k]? = some c → c.Heard w k
  closed : ∀ (k : Nat) (c : Socket), w.shared.sockets[k]? = some c → c.isOpen = false →
    (∃ f ∈ w.trace, f.op = .close k ∧ ∃ c', f.before.sockets[k]? = some c' ∧ c'.isOpen = true) ∨
      ∃ r ∈ w.trace, r.op = .reject k
  rooms : ∀ userId k, k ∈ w.shared.rooms userId ↔
    ∃ c, w.shared.sockets[k]? = some c ∧ c.isOpen = true ∧ c.userId = some userId
  nodup : ∀ userId, (w.shared.rooms userId).Nodup
  counted : ∀ userId, w.shared.app.rooms userId = (w.shared.rooms userId).length

section Wired
variable {cfg : Config} {verify : String → Millis → Option Id} {w : HubWorld} {n : Nat}
  {i : HubInvocation} {o : HubStmt} {s : Hub} {k : Nat} {c : Socket}

private theorem Socket.Listens.commit {upTo : List (Id × Message)} (h : c.Listens w k upTo)
    (hsent : c.isOpen = true → s.sent = w.shared.sent) :
    c.Listens (w.commit n i o s) k upTo := by
  unfold Socket.Listens at h ⊢
  cases ho : c.isOpen with
  | true =>
      rw [ho] at h
      exact h.trans (hsent ho).symm
  | false =>
      rw [ho] at h
      obtain ⟨f, hf, hrest⟩ := h
      exact ⟨f, World.mem_commit.mpr (Or.inl hf), hrest⟩

/-- A socket that a statement leaves alone has heard what it had. -/
private theorem Socket.Heard.commit (h : c.Heard w k) (hsent : s.sent = w.shared.sent) :
    c.Heard (w.commit n i o s) k := by
  unfold Socket.Heard at h ⊢
  cases hu : c.userId with
  | none =>
      rw [hu] at h
      exact h
  | some userId =>
      rw [hu] at h
      obtain ⟨e, he, hop, upTo, hlistens, hinbox⟩ := h
      exact ⟨e, World.mem_commit.mpr (Or.inl he), hop, upTo, hlistens.commit fun _ => hsent, hinbox⟩

private theorem Wired.closed_commit (h : Wired w) (hc : w.shared.sockets[k]? = some c)
    (ho : c.isOpen = false) :
    (∃ f ∈ (w.commit n i o s).trace, f.op = .close k ∧
      ∃ c', f.before.sockets[k]? = some c' ∧ c'.isOpen = true) ∨
      ∃ r ∈ (w.commit n i o s).trace, r.op = .reject k := by
  rcases h.closed k c hc ho with ⟨f, hf, hrest⟩ | ⟨r, hr, hop⟩
  · exact Or.inl ⟨f, World.mem_commit.mpr (Or.inl hf), hrest⟩
  · exact Or.inr ⟨r, World.mem_commit.mpr (Or.inl hr), hop⟩

/-- Nothing changes but the history. -/
private theorem Wired.idle (h : Wired w) : Wired (w.commit n i o w.shared) where
  heard k c hc := (h.heard k c hc).commit rfl
  closed _ _ hc ho := h.closed_commit hc ho
  rooms := h.rooms
  nodup := h.nodup
  counted := h.counted

/-- What a socket gets of a delivery: a socket in a room is open and its user's. -/
private theorem Wired.delivered (h : Wired w) (hc : w.shared.sockets[k]? = some c)
    (messages : List (Id × Message)) :
    (messages.filter fun x => k ∈ w.shared.rooms x.1).map Prod.snd =
      match c.isOpen, c.userId with
      | true, some userId => received userId messages
      | _, _ => [] := by
  have hroom (userId : Id) : k ∈ w.shared.rooms userId ↔
      c.isOpen = true ∧ c.userId = some userId := by
    rw [h.rooms]
    constructor
    · rintro ⟨c', hc', hrest⟩
      obtain rfl := Option.some.inj (hc.symm.trans hc')
      exact hrest
    · exact fun hrest => ⟨c, hc, hrest⟩
  have hnone (hno : ∀ userId, k ∉ w.shared.rooms userId) :
      (messages.filter fun x => k ∈ w.shared.rooms x.1).map Prod.snd = [] := by
    rw [List.filter_eq_nil_iff.mpr fun x _ => by simpa using hno x.1]
    rfl
  cases ho : c.isOpen with
  | false => exact hnone fun userId hk => nomatch ho.symm.trans ((hroom userId).mp hk).1
  | true =>
      cases hu : c.userId with
      | none => exact hnone fun userId hk => nomatch hu.symm.trans ((hroom userId).mp hk).2
      | some userId =>
          refine congrArg (List.map Prod.snd) (List.filter_congr fun x _ => ?_)
          rw [decide_eq_decide, hroom, ho, hu]
          exact ⟨fun hx => (Option.some.inj hx.2).symm, fun hx => ⟨rfl, congrArg some hx.symm⟩⟩

private theorem Wired.app (h : Wired w) (hH : Handled verify w) {a : AppStmt} {b : a.Res}
    (ha : a.movesSockets = false)
    (hx : Hub.exec cfg verify (.app a) w.shared = .ok (b, s)) :
    Wired (w.commit n i (.app a) s) := by
  obtain ⟨more, hsent, hsockets, hrooms, hcount⟩ := Hub.exec_app hx
  have hget (k : Nat) : s.sockets[k]? = w.shared.sockets[k]?.map fun c =>
      { c with inbox := c.inbox ++
          (more.filter fun x => k ∈ w.shared.rooms x.1).map Prod.snd } := by
    rw [hsockets, Hub.getElem?_deliver]
  have hback {k : Nat} {c' : Socket} (hc' : s.sockets[k]? = some c') :
      ∃ c, w.shared.sockets[k]? = some c ∧ c' = { c with inbox := c.inbox ++
        (more.filter fun x => k ∈ w.shared.rooms x.1).map Prod.snd } := by
    rw [hget, Option.map_eq_some_iff] at hc'
    obtain ⟨c, hc, rfl⟩ := hc'
    exact ⟨c, hc, rfl⟩
  constructor
  · intro k c' hc'
    obtain ⟨c, hc, rfl⟩ := hback hc'
    rw [h.delivered hc]
    have hheard := h.heard k c hc
    unfold Socket.Heard at hheard ⊢
    cases hu : c.userId with
    | none =>
        simp only [hu] at hheard ⊢
        rw [hheard]
        cases c.isOpen <;> rfl
    | some userId =>
        simp only [hu] at hheard ⊢
        obtain ⟨e, he, hop, upTo, hlistens, hinbox⟩ := hheard
        refine ⟨e, World.mem_commit.mpr (Or.inl he), hop, ?_⟩
        unfold Socket.Listens at hlistens ⊢
        cases ho : c.isOpen with
        | true =>
            simp only [ho] at hlistens ⊢
            refine ⟨s.sent, rfl, ?_⟩
            rw [hinbox, hlistens, hsent, List.drop_append_of_le_length (hH.grows e he),
              received_append]
        | false =>
            simp only [ho] at hlistens ⊢
            obtain ⟨f, hf, hrest⟩ := hlistens
            exact ⟨upTo, ⟨f, World.mem_commit.mpr (Or.inl hf), hrest⟩,
              by rw [hinbox, List.append_nil]⟩
  · intro k c' hc' ho
    obtain ⟨c, hc, rfl⟩ := hback hc'
    exact h.closed_commit hc ho
  · intro userId k
    rw [World.commit_shared, hrooms, h.rooms, hget]
    constructor
    · rintro ⟨c, hc, hrest⟩
      rw [hc]
      exact ⟨_, rfl, hrest⟩
    · rintro ⟨c', hc', hrest⟩
      rw [Option.map_eq_some_iff] at hc'
      obtain ⟨c, hc, rfl⟩ := hc'
      exact ⟨c, hc, hrest⟩
  · intro userId
    rw [World.commit_shared, hrooms]
    exact h.nodup userId
  · intro userId
    rw [World.commit_shared, hcount ha, hrooms]
    exact h.counted userId

private theorem Wired.accept (h : Wired w) (handshake : Handshake) :
    Wired (w.commit n i (.accept handshake)
      { w.shared with sockets := w.shared.sockets ++ [{ handshake }] }) := by
  have hback {k : Nat} {c : Socket}
      (hc : (w.shared.sockets ++ [({ handshake } : Socket)])[k]? = some c) :
      w.shared.sockets[k]? = some c ∨ c = { handshake } := by
    rw [List.getElem?_append] at hc
    split at hc
    · exact Or.inl hc
    · exact Or.inr (List.mem_singleton.mp (List.mem_of_getElem? hc))
  constructor
  · intro k c hc
    rcases hback hc with hc | rfl
    · exact (h.heard k c hc).commit rfl
    · exact rfl
  · intro k c hc ho
    rcases hback hc with hc | rfl
    · exact h.closed_commit hc ho
    · exact nomatch ho
  · intro userId k
    refine (h.rooms userId k).trans ⟨?_, ?_⟩
    · rintro ⟨c, hc, hrest⟩
      have hlt := (List.getElem?_eq_some_iff.mp hc).1
      exact ⟨c, (List.getElem?_append_left hlt).trans hc, hrest⟩
    · rintro ⟨c, hc, ho, hu⟩
      rcases hback hc with hc | rfl
      · exact ⟨c, hc, ho, hu⟩
      · exact nomatch hu
  · exact h.nodup
  · exact h.counted

/-- A statement that changes one socket and sends nothing. -/
private theorem Wired.modified (h : Wired w) {f : Socket → Socket}
    (hc : w.shared.sockets[k]? = some c) (hsockets : s.sockets = w.shared.sockets.modify k f)
    (hsent : s.sent = w.shared.sent) (heard : (f c).Heard (w.commit n i o s) k)
    (closed : (f c).isOpen = false →
      (∃ e ∈ (w.commit n i o s).trace, e.op = .close k ∧
        ∃ c', e.before.sockets[k]? = some c' ∧ c'.isOpen = true) ∨
        ∃ r ∈ (w.commit n i o s).trace, r.op = .reject k)
    (rooms : ∀ userId, (k ∈ s.rooms userId ↔ (f c).isOpen = true ∧ (f c).userId = some userId) ∧
      ∀ j, j ≠ k → (j ∈ s.rooms userId ↔ j ∈ w.shared.rooms userId))
    (nodup : ∀ userId, (s.rooms userId).Nodup)
    (counted : ∀ userId, s.app.rooms userId = (s.rooms userId).length) :
    Wired (w.commit n i o s) := by
  have hself : s.sockets[k]? = some (f c) := by
    rw [hsockets, List.getElem?_modify_eq, hc]
    rfl
  have hother {j : Nat} (hj : j ≠ k) : s.sockets[j]? = w.shared.sockets[j]? := by
    rw [hsockets, List.getElem?_modify_ne _ _ hj.symm]
  constructor
  · intro j c' hc'
    by_cases hj : j = k
    · subst hj
      obtain rfl := Option.some.inj (hself.symm.trans hc')
      exact heard
    · exact (h.heard j c' ((hother hj).symm.trans hc')).commit hsent
  · intro j c' hc' ho
    by_cases hj : j = k
    · subst hj
      obtain rfl := Option.some.inj (hself.symm.trans hc')
      exact closed ho
    · exact h.closed_commit ((hother hj).symm.trans hc') ho
  · intro userId j
    rw [World.commit_shared]
    by_cases hj : j = k
    · subst hj
      rw [(rooms userId).1, hself]
      constructor
      · exact fun hrest => ⟨_, rfl, hrest⟩
      · rintro ⟨c', hc', hrest⟩
        obtain rfl := Option.some.inj hc'
        exact hrest
    · rw [(rooms userId).2 j hj, h.rooms, hother hj]
  · exact nodup
  · exact counted

/-- A socket that nothing has been done with yet is nobody's, and in no room. -/
private theorem Wired.blank (h : Wired w) (hc : w.shared.sockets[k]? = some c)
    (hno : ∀ e ∈ w.trace, ¬ (e.op = .reject k ∨ ∃ userId, e.op = .join k userId)) :
    c.userId = none ∧ c.inbox = [] ∧ ∀ userId, k ∉ w.shared.rooms userId := by
  have hnobody : c.userId = none := by
    have hheard := h.heard k c hc
    unfold Socket.Heard at hheard
    cases hu : c.userId with
    | none => rfl
    | some userId =>
        rw [hu] at hheard
        obtain ⟨e, he, hop, -⟩ := hheard
        exact absurd (Or.inr ⟨userId, hop⟩) (hno e he)
  refine ⟨hnobody, ?_, fun userId hk => ?_⟩
  · have hheard := h.heard k c hc
    unfold Socket.Heard at hheard
    rw [hnobody] at hheard
    exact hheard
  · obtain ⟨c', hc', -, hu⟩ := (h.rooms userId k).mp hk
    obtain rfl := Option.some.inj (hc.symm.trans hc')
    exact nomatch hnobody.symm.trans hu

private theorem Wired.reject (h : Wired w) (hc : w.shared.sockets[k]? = some c)
    (hno : ∀ e ∈ w.trace, ¬ (e.op = .reject k ∨ ∃ userId, e.op = .join k userId)) :
    Wired (w.commit n i (.reject k) (w.shared.reject k)) := by
  obtain ⟨hnobody, hinbox, hout⟩ := h.blank hc hno
  refine h.modified hc rfl rfl ?_ (fun _ => Or.inr ⟨_, World.mem_commit.mpr (Or.inr rfl), rfl⟩)
    (fun userId => ⟨?_, fun _ _ => Iff.rfl⟩) h.nodup h.counted
  · unfold Socket.Heard
    rw [hnobody]
    exact hinbox
  · exact iff_of_false (hout userId) fun hrest => nomatch hrest.1

private theorem Wired.join (h : Wired w) (hH : Handled verify w)
    (hc : w.shared.sockets[k]? = some c)
    (hno : ∀ e ∈ w.trace, ¬ (e.op = .reject k ∨ ∃ userId, e.op = .join k userId))
    (userId : Id) : Wired (w.commit n i (.join k userId) (w.shared.join k userId)) := by
  obtain ⟨-, hinbox, hout⟩ := h.blank hc hno
  have hnow : (⟨n, i, .join k userId, w.shared⟩ : HubCommit) ∈
      (w.commit n i (.join k userId) (w.shared.join k userId)).trace :=
    World.mem_commit.mpr (Or.inr rfl)
  -- Whether it is open or closed by now, nothing was sent to it since it joined.
  have heard : Socket.Heard (w.commit n i (.join k userId) (w.shared.join k userId)) k
      { c with userId := some userId } := by
    refine ⟨_, hnow, rfl, ?_⟩
    unfold Socket.Listens
    cases ho : c.isOpen with
    | true =>
        refine ⟨_, rfl, hinbox.trans ?_⟩
        rw [World.commit_shared, Hub.join_sent, List.drop_length, received_nil]
    | false =>
        rcases h.closed k c hc ho with ⟨f, hf, hop, hopen⟩ | ⟨r, hr, hop⟩
        · refine ⟨_, ⟨f, World.mem_commit.mpr (Or.inl hf), hop, hopen, rfl⟩, hinbox.trans ?_⟩
          rw [List.drop_of_length_le (hH.grows f hf), received_nil]
        · exact absurd (Or.inl hop) (hno r hr)
  refine h.modified hc (Hub.join_sockets userId) (Hub.join_sent userId) heard
    (fun ho => h.closed_commit hc ho) ?_ ?_ ?_
  · intro v
    have hjoins : w.shared.sockets[k]?.map Socket.isOpen = some true ∧ v = userId ↔
        c.isOpen = true ∧ some userId = some v := by
      rw [hc, Option.map_some, Option.some.injEq, Option.some.injEq, eq_comm (a := v)]
    rw [Hub.join_rooms]
    split
    · next hboth =>
        exact ⟨iff_of_true List.mem_insert_self (hjoins.mp hboth), fun j hj =>
          List.mem_insert_iff.trans (or_iff_right hj)⟩
    · next hnot =>
        exact ⟨iff_of_false (hout v) (hnot ∘ hjoins.mpr), fun _ _ => Iff.rfl⟩
  · intro v
    rw [Hub.join_rooms]
    split
    · exact List.Nodup.insert (h.nodup v)
    · exact h.nodup v
  · intro v
    rw [Hub.join_rooms, Hub.join_count]
    split
    · rw [List.length_insert_of_not_mem (hout v), h.counted v]
    · exact h.counted v

private theorem Wired.close (h : Wired w) (k : Nat) :
    Wired (w.commit n i (.close k) (w.shared.close k).2) := by
  rcases Hub.close_eq w.shared k with hidle | ⟨c, hc, ho⟩
  · rw [hidle]
    exact h.idle
  have hnow : (⟨n, i, .close k, w.shared⟩ : HubCommit) ∈
      (w.commit n i (.close k) (w.shared.close k).2).trace := World.mem_commit.mpr (Or.inr rfl)
  refine h.modified hc Hub.close_sockets Hub.close_sent ?_
    (fun _ => Or.inl ⟨_, hnow, rfl, c, hc, ho⟩) ?_ ?_ ?_
  · have hheard := h.heard k c hc
    unfold Socket.Heard at hheard ⊢
    cases hu : c.userId with
    | none =>
        simp only [hu] at hheard ⊢
        exact hheard
    | some userId =>
        simp only [hu] at hheard ⊢
        obtain ⟨e, he, hop, upTo, hlistens, hinbox⟩ := hheard
        unfold Socket.Listens at hlistens
        rw [ho] at hlistens
        exact ⟨e, World.mem_commit.mpr (Or.inl he), hop, upTo,
          ⟨_, hnow, rfl, ⟨c, hc, ho⟩, hlistens⟩, hinbox⟩
  · intro v
    rw [Hub.close_rooms hc ho]
    split
    · exact ⟨iff_of_false (h.nodup v).not_mem_erase (fun hrest => nomatch hrest.1),
        fun j hj => List.mem_erase_of_ne hj⟩
    · next hnot =>
        refine ⟨iff_of_false (fun hk => hnot ?_) (fun hrest => nomatch hrest.1),
          fun _ _ => Iff.rfl⟩
        obtain ⟨c', hc', -, hu⟩ := (h.rooms v k).mp hk
        exact Option.some.inj (hc.symm.trans hc') ▸ hu
  · intro v
    rw [Hub.close_rooms hc ho]
    split
    · exact (h.nodup v).erase k
    · exact h.nodup v
  · intro v
    rw [Hub.close_rooms hc ho, Hub.close_count hc ho]
    split
    · next hu =>
        rw [List.length_erase_of_mem ((h.rooms v k).mpr ⟨c, hc, ho, hu⟩), h.counted v]
    · exact h.counted v

private theorem Wired.commit (h : Wired w) (hH : Handled verify w) {b : o.Res}
    (hJ : HubFact verify (memory n w.trace) o)
    (hx : Hub.exec cfg verify o w.shared = .ok (b, s)) : Wired (w.commit n i o s) := by
  have accepted {handshake : Handshake} {s₀ : Hub}
      (hmem : (HubStmt.accept handshake, s₀) ∈ memory n w.trace) :
      ∃ c, w.shared.sockets[s₀.sockets.length]? = some c := by
    obtain ⟨a, ha, -, hstep⟩ := mem_memory.mp hmem
    obtain ⟨hop, rfl⟩ := Prod.mk.inj hstep
    obtain ⟨c, hc, -⟩ := hH.accepted a ha handshake hop
    exact ⟨c, hc⟩
  cases o with
  | app a => exact h.app hH hJ hx
  | accept handshake =>
      cases hx
      exact h.accept handshake
  | verifyAsync token =>
      simp only [Hub.exec] at hx
      split at hx
      · cases hx
        exact h.idle
      · cases hx
  | join k userId =>
      obtain ⟨handshake, s₀, token, s₁, hl, rfl, -⟩ := hJ
      cases hx
      have hmem : (HubStmt.accept handshake, s₀) ∈ memory n w.trace := hl ▸ List.mem_cons_self
      obtain ⟨c, hc⟩ := accepted hmem
      refine h.join hH hc (hH.untouched hmem ?_) userId
      rw [hl]
      simp
  | reject k =>
      obtain ⟨handshake, s₀, rest, hl, rfl, hrest⟩ := hJ
      cases hx
      have hmem : (HubStmt.accept handshake, s₀) ∈ memory n w.trace := hl ▸ List.mem_cons_self
      obtain ⟨c, hc⟩ := accepted hmem
      refine h.reject hc (hH.untouched hmem ?_)
      rw [hl]
      intro x hx
      rcases List.mem_cons.mp hx with rfl | hx
      · simp
      · obtain ⟨token, ht⟩ := hrest x hx
        simp [ht]
  | close k =>
      obtain rfl : (w.shared.close k).2 = s := congrArg Prod.snd (Except.ok.inj hx)
      exact h.close k

end Wired

section Run
variable (cfg : Config) (verify : String → Millis → Option Id)

/-- The application as it starts, with nobody connected. -/
def hubPool (start : AppState) : Pool hubSignature ServiceError Hub HubInvocation :=
  .init { app := { start with rooms := fun _ => 0 } }

private theorem hub_recall :
    MemoryInvariant (hubSystem cfg verify) (fun _ => True) fun _ l c =>
      c.Recalls (hubSystem cfg verify) (fun _ => True) (HubFact verify) (fun _ _ => True) l :=
  .of_recalls (fun _ _ => trivial) hub_recalls

theorem wired_run (start : AppState) (ms : List HubMove) :
    let w := ((hubPool start).run (hubSystem cfg verify) ms).world
    Handled verify w ∧ Wired w := by
  let K : HubWorld → Prop := fun w => Handled verify w ∧ Wired w
  suffices h : ((hubPool start).run (hubSystem cfg verify) ms).world.Always K from h.now
  apply (hub_recall cfg verify).always_run (Q := fun _ _ _ => True)
  · intro w n i o k b s h hT _ hx
    exact ⟨h.now.1.commit hT.1 hx, h.now.2.commit h.now.1 hT.1 hx⟩
  · exact MemoryInvariant.holds_init trivial
  · apply World.always_init
    constructor
    · constructor
      · exact fun e he => absurd he List.not_mem_nil
      · exact fun d hd => absurd hd List.not_mem_nil
      · exact fun e he => absurd he List.not_mem_nil
      · exact fun e he => absurd he List.not_mem_nil
      · exact fun d hd => absurd hd List.not_mem_nil
      · exact fun e he => absurd he List.not_mem_nil
    · constructor
      · exact fun k c hc => absurd hc nofun
      · exact fun k c hc => absurd hc nofun
      · exact fun userId k => iff_of_false List.not_mem_nil fun ⟨_, hc, _⟩ => nomatch hc
      · exact fun userId => List.nodup_nil
      · exact fun userId => rfl
  · exact Along.of_invariant (G := fun _ => True) (fun _ _ _ => trivial)
      (fun _ _ _ _ _ _ _ _ _ => trivial) trivial ms

/-- However requests and connections overlap, fail and stop: a socket has received what
went to the room of its user from when it joined until it closed, and it joined once,
by a token of its own that was valid. The room of a user holds the user's open sockets,
and there are as many as the application counts. -/
theorem inboxes_exact (start : AppState) (ms : List HubMove) :
    let w := ((hubPool start).run (hubSystem cfg verify) ms).world
    (∀ (k : Nat) (c : Socket), w.shared.sockets[k]? = some c →
      match c.userId with
      | none => c.inbox = []
      | some userId =>
          (∃ token, RealtimeGateway.extractToken c.handshake = some token ∧
            ∃ v ∈ w.trace, v.op = .verifyAsync token ∧
              verify token v.before.app.clock = some userId) ∧
          ∃ e ∈ w.trace, e.op = .join k userId ∧
            (∀ d ∈ w.trace, ∀ userId', d.op = .join k userId' → d = e) ∧
            ∃ upTo, c.Listens w k upTo ∧
              c.inbox = received userId (upTo.drop e.before.sent.length)) ∧
    ∀ userId, (w.shared.rooms userId).Nodup ∧
      (∀ k, k ∈ w.shared.rooms userId ↔ ∃ c, w.shared.sockets[k]? = some c ∧
        c.isOpen = true ∧ c.userId = some userId) ∧
      w.shared.app.rooms userId = (w.shared.rooms userId).length := by
  intro w
  obtain ⟨hH, hW⟩ : Handled verify w ∧ Wired w := wired_run cfg verify start ms
  refine ⟨fun k c hc => ?_, fun userId => ⟨hW.nodup userId, hW.rooms userId, hW.counted userId⟩⟩
  have hheard := hW.heard k c hc
  unfold Socket.Heard at hheard
  split at hheard
  · exact hheard
  · next userId _ =>
      obtain ⟨e, he, hop, hrest⟩ := hheard
      obtain ⟨a, ha, handshake, haop, hlength, token, htoken, hv⟩ := hH.verified e he k userId hop
      obtain ⟨c', hc', hhandshake⟩ := hH.accepted a ha handshake haop
      rw [hlength, hc] at hc'
      obtain rfl := Option.some.inj hc'
      exact ⟨⟨token, hhandshake ▸ htoken, hv⟩, e, he, hop,
        fun d hd userId' hdop => hH.joined d hd e he k userId' userId hdop hop, hrest⟩

end Run

end Reedr
