import Reedr.App.Effects

/-!
# Sockets and the rooms of users

What the gateway sends to the room of a user goes to the sockets in it. A socket
gets there by a token that was verified while it connected, which takes time: it
may close meanwhile, messages are sent meanwhile, and other sockets come and go.

## Implementation notes

The sockets lie under the application, which only counts them. An `emit` of any
statement reaches the sockets that are in the room at that moment. A socket that
has closed is in no room and joins none; closing runs `handleDisconnect` up to its
only `await`. Messages that a socket sends are requests of the user it was
authenticated as.
-/

namespace Reedr
open Interleaving

/-- What a client presents when it connects. -/
structure Handshake where
  /-- `handshake.auth.token` -/
  token : Option String := none
  /-- The header `authorization`. -/
  authorization : Option String := none
  deriving DecidableEq, Repr

structure Socket where
  handshake : Handshake
  /-- `data.userId` -/
  userId : Option Id := none
  isOpen : Bool := true
  inbox : List Message := []
  errors : List String := []
  deriving DecidableEq, Repr

/-- The application with its sockets, by number, and who is in which room. -/
structure Hub where
  app : AppState
  sockets : List Socket := []
  rooms : Id → List Nat := fun _ => []

inductive HubStmt where
  | app (o : AppStmt)
  | accept (handshake : Handshake)
  | verifyAsync (token : String)
  | join (socket : Nat) (userId : Id)
  | reject (socket : Nat)
  /-- Tells whose socket it was, and whether they are still connected elsewhere. -/
  | close (socket : Nat)

namespace HubStmt

abbrev Res : HubStmt → Type
  | app o => o.Res
  | accept _ => Nat
  | verifyAsync _ => Id
  | join _ _ => Unit
  | reject _ => Unit
  | close _ => Option (Id × Bool)

def external : HubStmt → Bool
  | app o => o.external
  | verifyAsync _ => true
  | _ => false

end HubStmt

abbrev hubSignature : Signature := ⟨HubStmt, HubStmt.Res⟩

abbrev HubCall (α : Type) := Call hubSignature ServiceError α

/-- Execute one statement on the sockets. -/
abbrev dispatch (o : HubStmt) : HubCall o.Res := Call.perform (σ := hubSignature) o

def appInHub : Signature.Embedding appSignature hubSignature where
  op := .app
  res _ r := r

namespace Hub
variable (s : Hub)

/-- What has been sent to the rooms of users, in order. -/
abbrev sent : List (Id × Message) := s.app.gateway.sent

/-- Hand messages to the sockets in the rooms they are sent to. -/
def deliver (messages : List (Id × Message)) : Hub :=
  { s with
    sockets := s.sockets.mapIdx fun k c =>
      { c with inbox := c.inbox ++ (messages.filter fun x => k ∈ s.rooms x.1).map Prod.snd } }

/-- `socket.data` is set in any case; a socket that has closed joins no room. -/
def join (k : Nat) (userId : Id) : Hub :=
  let authenticated := s.sockets.modify k fun c => { c with userId := some userId }
  if (s.sockets[k]?.map Socket.isOpen) = some true then
    { app := { s.app with rooms := Function.update s.app.rooms userId (s.app.rooms userId + 1) }
      sockets := authenticated
      rooms := Function.update s.rooms userId ((s.rooms userId).insert k) }
  else { s with sockets := authenticated }

/-- Tell the client and disconnect it. -/
def reject (k : Nat) : Hub :=
  { s with
    sockets := s.sockets.modify k fun c =>
      { c with isOpen := false, errors := c.errors ++ ["Unauthorized"] } }

/-- The socket leaves its room, then its user is dropped. -/
def close (k : Nat) : Option (Id × Bool) × Hub :=
  let closed := s.sockets.modify k fun c => { c with isOpen := false }
  match s.sockets[k]? with
  | none => (none, s)
  | some c =>
      match c.isOpen, c.userId with
      | false, _ => (none, s)
      | true, none => (none, { s with sockets := closed })
      | true, some userId =>
          let rooms := Function.update s.rooms userId ((s.rooms userId).erase k)
          (some (userId, 0 < (rooms userId).length),
            { app := s.app.dropSocket userId, sockets := closed, rooms })

/-- `verify` gives the subject of a token that is valid at a time. -/
def exec (cfg : Config) (verify : String → Millis → Option Id) :
    (o : HubStmt) → Hub → Except ServiceError (o.Res × Hub)
  | .app o, s =>
      match AppState.exec cfg o s.app with
      | .ok (b, app) => .ok (b, { s.deliver (app.gateway.sent.drop s.sent.length) with app })
      | .error e => .error e
  | .accept handshake, s =>
      .ok (s.sockets.length, { s with sockets := s.sockets ++ [{ handshake }] })
  | .verifyAsync token, s =>
      match verify token s.app.clock with
      | some userId => .ok (userId, s)
      | none => .error .outage
  | .join k userId, s => .ok ((), s.join k userId)
  | .reject k, s => .ok ((), s.reject k)
  | .close k, s => .ok (s.close k)

end Hub

/-- JavaScript's `replace` with a text to look for: only its first occurrence. -/
def removeFirst (pattern : List Char) : List Char → List Char
  | [] => []
  | c :: rest =>
      if pattern.isPrefixOf (c :: rest) then (c :: rest).drop pattern.length
      else c :: removeFirst pattern rest

namespace RealtimeGateway

/-- The token of the handshake, else of the header; an empty one is none. -/
def extractToken (handshake : Handshake) : Option String :=
  (handshake.token <|> handshake.authorization.map fun authorization =>
    String.ofList (removeFirst "Bearer ".toList authorization.toList)).filter (· ≠ "")

example : extractToken { authorization := some "Bearer abc" } = some "abc" := by decide

end RealtimeGateway

namespace Hub
open RealtimeGateway

/-- What goes wrong is only caught, whatever it is. -/
def handleConnection (handshake : Handshake) : HubCall Unit := do
  let socket ← dispatch (.accept handshake)
  Call.recover (do
      let token ← Call.required (extractToken handshake) .outage
      let userId ← dispatch (.verifyAsync token)
      dispatch (.join socket userId))
    fun _ => dispatch (.reject socket)

def handleDisconnect (cfg : Config) (socket : Nat) : HubCall Unit := do
  match ← dispatch (.close socket) with
  | some (userId, false) =>
      Call.recover (((DriversService.goOffline cfg userId).embed rideInApp).embed appInHub)
        fun _ => .done ()
  | _ => return ()

end Hub

/-- Comes from the transport, which has its own invocations below. -/
def AppInvocation.connects : AppInvocation → Bool
  | .connect _ | .disconnect _ => true
  | _ => false

/-- What reaches the application, and the coming and going of sockets. -/
inductive HubInvocation where
  | request (i : AppInvocation) (hi : i.connects = false)
  | connect (handshake : Handshake)
  | disconnect (socket : Nat)

def HubInvocation.code (cfg : Config) : HubInvocation → HubCall Unit
  | .request i _ => (i.code cfg).embed appInHub
  | .connect handshake => Hub.handleConnection handshake
  | .disconnect socket => Hub.handleDisconnect cfg socket

def hubSystem (cfg : Config) (verify : String → Millis → Option Id) :
    System hubSignature ServiceError Hub HubInvocation where
  code := HubInvocation.code cfg
  exec := Hub.exec cfg verify
  external := HubStmt.external
  outage := .outage

abbrev HubWorld := World hubSignature Hub HubInvocation
abbrev HubCommit := Commit hubSignature Hub HubInvocation
abbrev HubMove := Move HubInvocation

/-- The messages among these that went to the room of a user. -/
def received (userId : Id) (messages : List (Id × Message)) : List Message :=
  (messages.filter fun x => x.1 = userId).map Prod.snd

@[simp] theorem received_nil (userId : Id) : received userId [] = [] := rfl

theorem received_append (userId : Id) (l l' : List (Id × Message)) :
    received userId (l ++ l') = received userId l ++ received userId l' := by
  simp [received]

/-- The statements of the application that count sockets. -/
def AppStmt.movesSockets : AppStmt → Bool
  | .joinRoom _ | .dropSocket _ => true
  | _ => false

theorem AppState.exec_rooms {cfg : Config} {o : AppStmt} {b : o.Res} {s s' : AppState}
    (h : exec cfg o s = .ok (b, s')) (ho : o.movesSockets = false) : s'.rooms = s.rooms := by
  cases o with
  | rating o => rw [exec_rating h]
  | joinRoom userId => exact nomatch ho
  | dropSocket userId => exact nomatch ho
  | _ =>
      cases h
      rfl

namespace Hub
variable {cfg : Config} {verify : String → Millis → Option Id} {s s' : Hub} {o : HubStmt}
  {b : o.Res} {k : Nat}

theorem exec_app {o : AppStmt} {b : o.Res} (h : exec cfg verify (.app o) s = .ok (b, s')) :
    ∃ more, s'.sent = s.sent ++ more ∧ s'.sockets = (s.deliver more).sockets ∧
      s'.rooms = s.rooms ∧ (o.movesSockets = false → s'.app.rooms = s.app.rooms) := by
  simp only [exec] at h
  split at h
  · next b app hx =>
      cases h
      obtain ⟨more, hmore⟩ := AppState.exec_sent hx
      refine ⟨more, hmore, ?_, rfl, AppState.exec_rooms hx⟩
      rw [show app.gateway.sent.drop s.sent.length = more by rw [hmore]; simp]
  · cases h

/-- The socket with a number after a delivery. -/
theorem getElem?_deliver (messages : List (Id × Message)) :
    (s.deliver messages).sockets[k]? = s.sockets[k]?.map fun c =>
      { c with inbox := c.inbox ++ (messages.filter fun x => k ∈ s.rooms x.1).map Prod.snd } := by
  simp [deliver]

theorem join_sockets (userId : Id) : (s.join k userId).sockets =
    s.sockets.modify k fun c => { c with userId := some userId } := by
  unfold join
  split <;> rfl

@[simp] theorem join_sent (userId : Id) : (s.join k userId).sent = s.sent := by
  unfold join
  split <;> rfl

theorem join_rooms (userId v : Id) : (s.join k userId).rooms v =
    if s.sockets[k]?.map Socket.isOpen = some true ∧ v = userId then (s.rooms v).insert k
    else s.rooms v := by
  unfold join
  by_cases hv : v = userId
  · subst hv
    split <;> simp_all
  · split <;> simp [hv]

theorem join_count (userId v : Id) : (s.join k userId).app.rooms v =
    if s.sockets[k]?.map Socket.isOpen = some true ∧ v = userId then s.app.rooms v + 1
    else s.app.rooms v := by
  unfold join
  by_cases hv : v = userId
  · subst hv
    split <;> simp_all
  · split <;> simp [hv]

/-- Closing a socket that is there and open; all else is no closing. -/
theorem close_eq (s : Hub) (k : Nat) : s.close k = (none, s) ∨
    ∃ c, s.sockets[k]? = some c ∧ c.isOpen = true := by
  unfold close
  split
  · exact Or.inl rfl
  · next c hc =>
      cases ho : c.isOpen with
      | false => exact Or.inl rfl
      | true => exact Or.inr ⟨c, hc, ho⟩

@[simp] theorem close_sent : (s.close k).2.sent = s.sent := by
  unfold close
  split
  · rfl
  · split <;> rfl

theorem close_rooms {c : Socket} (hc : s.sockets[k]? = some c) (ho : c.isOpen = true) (v : Id) :
    (s.close k).2.rooms v = if c.userId = some v then (s.rooms v).erase k else s.rooms v := by
  unfold close
  simp only [hc, ho]
  cases hu : c.userId with
  | none => simp
  | some userId =>
      by_cases hv : v = userId
      · subst hv
        simp
      · simp [hv, Ne.symm hv]

theorem close_count {c : Socket} (hc : s.sockets[k]? = some c) (ho : c.isOpen = true) (v : Id) :
    (s.close k).2.app.rooms v = if c.userId = some v then s.app.rooms v - 1
      else s.app.rooms v := by
  unfold close
  simp only [hc, ho]
  cases hu : c.userId with
  | none => simp
  | some userId =>
      by_cases hv : v = userId
      · subst hv
        simp [AppState.dropSocket]
      · simp [AppState.dropSocket, AppState.updateGateway, hv, Ne.symm hv]

theorem exec_sent (h : exec cfg verify o s = .ok (b, s')) :
    ∃ more, s'.sent = s.sent ++ more := by
  have same (hs : s'.sent = s.sent) : ∃ more, s'.sent = s.sent ++ more :=
    ⟨[], hs.trans (List.append_nil _).symm⟩
  cases o with
  | app o =>
      obtain ⟨more, hmore, -⟩ := exec_app h
      exact ⟨more, hmore⟩
  | verifyAsync token =>
      simp only [exec] at h
      split at h
      · cases h
        exact same rfl
      · cases h
  | join k userId =>
      cases h
      exact same (join_sent userId)
  | close k =>
      obtain rfl : (s.close k).2 = s' := congrArg Prod.snd (Except.ok.inj h)
      exact same close_sent
  | _ =>
      cases h
      exact same rfl

theorem close_sockets : (s.close k).2.sockets =
    s.sockets.modify k fun c => { c with isOpen := false } := by
  have closed (h : ∀ c, s.sockets[k]? = some c → c.isOpen = false) :
      s.sockets = s.sockets.modify k fun c => { c with isOpen := false } := by
    refine List.ext_getElem? fun j => ?_
    rw [List.getElem?_modify]
    cases hc : s.sockets[j]? with
    | none => rfl
    | some c =>
        by_cases hj : k = j
        · subst hj
          simp [← h c hc]
        · simp [hj]
  unfold close
  split
  · next hnone => exact closed fun c hc => nomatch hnone.symm.trans hc
  · next c hc =>
      split
      · next _ hopen => exact closed fun c' hc' => Option.some.inj (hc.symm.trans hc') ▸ hopen
      · rfl
      · rfl

/-- A socket stays the one it was accepted as. -/
theorem exec_handshake (h : exec cfg verify o s = .ok (b, s')) {c : Socket}
    (hc : s.sockets[k]? = some c) :
    ∃ c', s'.sockets[k]? = some c' ∧ c'.handshake = c.handshake := by
  have modified {j : Nat} {f : Socket → Socket} (hs : s'.sockets = s.sockets.modify j f)
      (hf : ∀ c, (f c).handshake = c.handshake) :
      ∃ c', s'.sockets[k]? = some c' ∧ c'.handshake = c.handshake := by
    refine ⟨if j = k then f c else c, ?_, ?_⟩
    · rw [hs, List.getElem?_modify, hc]
      rfl
    · split
      · exact hf c
      · rfl
  cases o with
  | app o =>
      obtain ⟨more, -, hsockets, -⟩ := exec_app h
      rw [hsockets, getElem?_deliver, hc]
      exact ⟨_, rfl, rfl⟩
  | accept handshake =>
      cases h
      exact ⟨c, List.getElem?_append_left (List.getElem?_eq_some_iff.mp hc).1 ▸ hc, rfl⟩
  | verifyAsync token =>
      simp only [exec] at h
      split at h
      · cases h
        exact ⟨c, hc, rfl⟩
      · cases h
  | join j userId =>
      cases h
      exact modified (join_sockets userId) fun _ => rfl
  | reject j =>
      cases h
      exact modified rfl fun _ => rfl
  | close j =>
      obtain rfl : (s.close j).2 = s' := congrArg Prod.snd (Except.ok.inj h)
      exact modified close_sockets fun _ => rfl

end Hub

end Reedr
