import Reedr.App.Delivery
import Reedr.Library.Simulation

/-!
# The application over sockets

The application knows a call for every socket that joins the room of its user or
leaves it. Over sockets such a call begins in the middle of another one, when a token
has been verified or a socket has closed. The application does there what it does by
itself.

## Implementation notes

A call of the sockets is outside until it enters the application, and from then on
it runs as one call of the application. Joining is a whole call; leaving goes on with
what is left of `handleDisconnect`.
-/

namespace Reedr
open Interleaving

/-- What a statement on the sockets does to the application. -/
def HubStmt.toApp (s : Hub) : HubStmt → Option AppStmt
  | .app o => some o
  | .join k userId =>
      if s.sockets[k]?.map Socket.isOpen = some true then some (.joinRoom userId) else none
  | .close k => (s.close k).1.map fun left => .dropSocket left.1
  | _ => none

/-- What the application has been through, within the history of the sockets. -/
def HubWorld.appHistory (w : HubWorld) : List (AppStmt × AppState) :=
  w.trace.filterMap fun e => (e.op.toApp e.before).map fun o => (o, e.before.app)

def AppWorld.history (w : AppWorld) : List (AppStmt × AppState) :=
  w.trace.map fun e => (e.op, e.before)

section Histories
variable {w : HubWorld} {v : AppWorld} {n : Nat}

theorem HubWorld.appHistory_commit {i : HubInvocation} {o : HubStmt} {s : Hub} :
    HubWorld.appHistory (w.commit n i o s) = HubWorld.appHistory w ++
      ((o.toApp w.shared).map fun a => (a, w.shared.app)).toList := by
  simp only [HubWorld.appHistory, World.commit_trace, List.filterMap_append]
  cases h : o.toApp w.shared <;> simp [h]

theorem AppWorld.history_commit {i : AppInvocation} {o : AppStmt} {s : AppState} :
    AppWorld.history (v.commit n i o s) = AppWorld.history v ++ [(o, v.shared)] := by
  simp [AppWorld.history]

end Histories

section Effects
variable {cfg : Config} {verify : String → Millis → Option Id} {s s' : Hub} {o : HubStmt}
  {b : o.Res}

theorem Hub.exec_app_ok {a : AppStmt} {b : a.Res}
    (h : Hub.exec cfg verify (.app a) s = .ok (b, s')) :
    AppState.exec cfg a s.app = .ok (b, s'.app) := by
  simp only [Hub.exec] at h
  split at h
  · next hx =>
      cases h
      exact hx
  · cases h

theorem Hub.exec_app_error {a : AppStmt} {e : ServiceError}
    (h : Hub.exec cfg verify (.app a) s = .error e) : AppState.exec cfg a s.app = .error e := by
  simp only [Hub.exec] at h
  split at h
  · cases h
  · next hx =>
      cases h
      exact hx

/-- What is nothing to the application leaves it as it is. -/
theorem Hub.exec_silent (h : Hub.exec cfg verify o s = .ok (b, s')) (ho : o.toApp s = none) :
    s'.app = s.app := by
  cases o with
  | app a => exact nomatch ho
  | verifyAsync token =>
      simp only [Hub.exec] at h
      split at h
      · cases h
        rfl
      · cases h
  | join k userId =>
      cases h
      simp only [HubStmt.toApp] at ho
      split at ho
      · cases ho
      · next hclosed => simp [Hub.join, hclosed]
  | close k =>
      obtain rfl : (s.close k).2 = s' := congrArg Prod.snd (Except.ok.inj h)
      simp only [HubStmt.toApp, Option.map_eq_none_iff] at ho
      unfold Hub.close at ho ⊢
      split
      · rfl
      · next c hc =>
          rw [hc] at ho
          dsimp only at ho ⊢
          split
          · rfl
          · rfl
          · next hopen huser =>
              rw [hopen, huser] at ho
              cases ho
  | _ =>
      cases h
      rfl

/-- Joining an open socket is `joinRoom`. -/
theorem Hub.join_app {k : Nat} {userId : Id} {a : AppStmt}
    (ho : HubStmt.toApp s (.join k userId) = some a) :
    a = .joinRoom userId ∧ AppState.exec cfg (.joinRoom userId) s.app =
      .ok ((), (s.join k userId).app) := by
  simp only [HubStmt.toApp] at ho
  split at ho
  · next hopen =>
      obtain rfl := Option.some.inj ho
      refine ⟨rfl, ?_⟩
      simp [Hub.join, hopen, AppState.exec]
  · cases ho

/-- Whose socket has been closed. -/
theorem Hub.close_left {k : Nat} {userId : Id} {elsewhere : Bool}
    (h : (s.close k).1 = some (userId, elsewhere)) :
    ∃ c, s.sockets[k]? = some c ∧ c.isOpen = true ∧ c.userId = some userId := by
  unfold Hub.close at h
  split at h
  · cases h
  · next c hc =>
      dsimp only at h
      split at h
      · cases h
      · cases h
      · next ho hu =>
          cases h
          exact ⟨c, hc, ho, hu⟩

/-- Closing a socket of a user is `dropSocket`, as long as the application counts right. -/
theorem Hub.close_app {k : Nat} {userId : Id} {elsewhere : Bool}
    (h : (s.close k).1 = some (userId, elsewhere))
    (hcounted : s.app.rooms userId = (s.rooms userId).length)
    (hroom : k ∈ s.rooms userId) :
    AppState.exec cfg (.dropSocket userId) s.app = .ok (elsewhere, (s.close k).2.app) := by
  unfold Hub.close at h ⊢
  split at h
  · cases h
  · next c hc =>
      dsimp only at h ⊢
      split at h
      · cases h
      · cases h
      · next u ho hu =>
          cases h
          simp [AppState.exec, AppState.dropSocket, hcounted, List.length_erase_of_mem hroom]

end Effects

/-- The statements before a token is verified and the room joined. -/
def HubStmt.connects : HubStmt → Bool
  | .accept _ | .verifyAsync _ | .join _ _ | .reject _ => true
  | .app _ | .close _ => false

/-- A call of the sockets that has not entered the application. -/
inductive Outside (cfg : Config) : HubCall Unit → Prop where
  | connecting {c : HubCall Unit} (h : c.Uses fun o : HubStmt => o.connects = true) : Outside cfg c
  | leaving (socket : Nat) : Outside cfg (Hub.handleDisconnect cfg socket)

/-- The calls of the application are those of the sockets that have entered it. -/
structure Mirrors (cfg : Config) (entered : Nat → Option Nat)
    (q : Pool hubSignature ServiceError Hub HubInvocation) (p : AppPool) : Prop where
  state : p.world.shared = q.world.shared.app
  history : AppWorld.history p.world = HubWorld.appHistory q.world
  apart : ∀ n n' m, entered n = some m → entered n' = some m → n = n'
  inside : ∀ n m, entered n = some m → ∃ i i' c,
    q.running[n]? = some (i, Call.embed appInHub c) ∧ p.running[m]? = some (i', c)
  outside : ∀ n i c, entered n = none → q.running[n]? = some (i, c) → Outside cfg c

/-- Some moves of the application make its calls those of the sockets again. -/
def Followed (cfg : Config) (p : AppPool)
    (q : Pool hubSignature ServiceError Hub HubInvocation) : Prop :=
  ∃ entered ms, Mirrors cfg entered q (p.run (appSystem cfg) ms)

section Mirrors
variable {cfg : Config} {verify : String → Millis → Option Id} {entered : Nat → Option Nat}
  {q q' : Pool hubSignature ServiceError Hub HubInvocation} {p p' : AppPool}
  {n : Nat} {i : HubInvocation} {o : HubStmt}
  {k : Except ServiceError o.Res → HubCall Unit} {b : o.Res} {s : Hub}

/-- One call of the sockets goes on, as the call `g` of the application or outside. -/
private theorem Mirrors.put (h : Mirrors cfg entered q p) (n : Nat) (g : Option Nat)
    (state : p'.world.shared = q'.world.shared.app)
    (history : AppWorld.history p'.world = HubWorld.appHistory q'.world)
    (hq : ∀ j, j ≠ n → q'.running[j]? = q.running[j]?)
    (hp : ∀ k i c, p.running[k]? = some (i, c) → g ≠ some k → p'.running[k]? = some (i, c))
    (hg : ∀ m, g = some m → (entered n = some m ∨ p.running.length ≤ m) ∧ ∃ i i' c,
      q'.running[n]? = some (i, Call.embed appInHub c) ∧ p'.running[m]? = some (i', c))
    (hout : g = none → ∀ i c, q'.running[n]? = some (i, c) → Outside cfg c) :
    Mirrors cfg (Function.update entered n g) q' p' := by
  -- The calls that others have entered as stay theirs.
  have fresh {j m : Nat} (hj : j ≠ n) (hm : entered j = some m) : g ≠ some m := by
    intro hgm
    rcases (hg m hgm).1 with hn | hlength
    · exact hj (h.apart j n m hm hn)
    · obtain ⟨_, _, _, _, hc⟩ := h.inside j m hm
      exact absurd (List.getElem?_eq_some_iff.mp hc).1 (Nat.not_lt.mpr hlength)
  constructor
  · exact state
  · exact history
  · intro j j' m hj hj'
    by_cases hjn : j = n <;> by_cases hjn' : j' = n
    · exact hjn.trans hjn'.symm
    · subst hjn
      rw [Function.update_self] at hj
      rw [Function.update_of_ne hjn'] at hj'
      exact absurd hj (fresh hjn' hj')
    · subst hjn'
      rw [Function.update_self] at hj'
      rw [Function.update_of_ne hjn] at hj
      exact absurd hj' (fresh hjn hj)
    · rw [Function.update_of_ne hjn] at hj
      rw [Function.update_of_ne hjn'] at hj'
      exact h.apart j j' m hj hj'
  · intro j m hj
    by_cases hjn : j = n
    · subst hjn
      rw [Function.update_self] at hj
      exact (hg m hj).2
    · rw [Function.update_of_ne hjn] at hj
      obtain ⟨i, i', c, hqc, hpc⟩ := h.inside j m hj
      exact ⟨i, i', c, (hq j hjn).trans hqc, hp m i' c hpc (fresh hjn hj)⟩
  · intro j i c hj hc
    by_cases hjn : j = n
    · subst hjn
      rw [Function.update_self] at hj
      exact hout hj i c hc
    · rw [Function.update_of_ne hjn] at hj
      exact h.outside j i c hj ((hq j hjn).symm.trans hc)

private theorem handleConnection_connects (handshake : Handshake) :
    (Hub.handleConnection handshake).Uses fun o : HubStmt => o.connects = true := by
  refine Call.Uses.bind (Call.Uses.perform rfl) fun socket => ?_
  refine Call.Uses.recover ?_ fun _ => Call.Uses.perform rfl
  refine Call.Uses.bind (Call.Uses.required _ _) fun token => ?_
  exact Call.Uses.bind (Call.Uses.perform rfl) fun userId => Call.Uses.perform rfl

/-- A statement that goes wrong goes wrong for the application too. -/
private theorem Mirrors.refusal (h : Mirrors cfg entered q p) (e : ServiceError)
    (hr : q.running[n]? = some (i, .step o k))
    (hp : ∀ a, o = .app a → ∀ m i' k', p.running[m]? = some (i', .step a k') →
      ∃ ms, p.run (appSystem cfg) ms = p.resume m i' (k' (.error e))) :
    Followed cfg p (q.resume n i (k (.error e))) := by
  have hself : (q.resume n i (k (.error e))).running[n]? = some (i, k (.error e)) :=
    Pool.getElem?_resume hr
  have hq (j : Nat) (hj : j ≠ n) :
      (q.resume n i (k (.error e))).running[j]? = q.running[j]? := Pool.getElem?_resume_of_ne hj
  cases hn : entered n with
  | some m =>
      obtain ⟨i₀, i', c, hqc, hpc⟩ := h.inside n m hn
      rw [hr] at hqc
      cases c with
      | done a => cases hqc
      | fail e => cases hqc
      | step a k' =>
          cases hqc
          obtain ⟨ms, hms⟩ := hp a rfl m i' k' hpc
          refine ⟨Function.update entered n (some m), ms, ?_⟩
          rw [hms]
          refine h.put n (some m) h.state h.history hq (fun j i c hc hj => ?_) (fun m' hm' => ?_)
            nofun
          · exact (Pool.getElem?_resume_of_ne fun hjm => hj (congrArg some hjm.symm)).trans hc
          · obtain rfl := Option.some.inj hm'
            exact ⟨Or.inl hn, i, i', k' (.error e), hself, Pool.getElem?_resume hpc⟩
  | none =>
      refine ⟨_, [], h.put n none h.state h.history hq (fun _ _ _ hc _ => hc) nofun
        fun _ i' c hc => ?_⟩
      cases hself.symm.trans hc
      generalize hstep : Call.step (σ := hubSignature) o k = c at hr
      cases h.outside n i c hn hr with
      | connecting huses =>
          subst hstep
          exact .connecting (huses.2 _)
      | leaving socket =>
          cases hstep
          exact .connecting trivial

/-- A statement of the application that a call executes which has entered it. -/
private theorem Mirrors.served (h : Mirrors cfg entered q p) {m : Nat}
    (hr : q.running[n]? = some (i, .step o k)) (hn : entered n = some m)
    (hx : Hub.exec cfg verify o q.world.shared = .ok (b, s)) :
    Followed cfg p { q.resume n i (k (.ok b)) with world := q.world.commit n i o s } := by
  obtain ⟨i₀, i', c, hqc, hpc⟩ := h.inside n m hn
  rw [hr] at hqc
  cases c with
  | done a => cases hqc
  | fail e => cases hqc
  | step a k' =>
      cases hqc
      have hax : (appSystem cfg).exec a p.world.shared = .ok (b, s.app) := by
        rw [h.state]
        exact Hub.exec_app_ok hx
      refine ⟨Function.update entered n (some m), [.advance m], ?_⟩
      rw [Pool.run_cons, Pool.run_nil, Pool.step_executed hpc hax]
      refine h.put n (some m) rfl ?_ (fun j hj => Pool.getElem?_resume_of_ne hj)
        (fun j i c hc hj => ?_) (fun m' hm' => ?_) nofun
      · rw [AppWorld.history_commit, HubWorld.appHistory_commit, h.history, h.state]
        rfl
      · exact (Pool.getElem?_resume_of_ne fun hjm => hj (congrArg some hjm.symm)).trans hc
      · obtain rfl := Option.some.inj hm'
        exact ⟨Or.inl hn, i, i', k' (.ok b), Pool.getElem?_resume hr, Pool.getElem?_resume hpc⟩

/-- A call that stays outside executes a statement that is nothing to the application. -/
private theorem Mirrors.silent (h : Mirrors cfg entered q p)
    (hr : q.running[n]? = some (i, .step o k))
    (hx : Hub.exec cfg verify o q.world.shared = .ok (b, s))
    (ho : o.toApp q.world.shared = none) (hout : Outside cfg (k (.ok b))) :
    Followed cfg p { q.resume n i (k (.ok b)) with world := q.world.commit n i o s } := by
  refine ⟨_, [], h.put n none (h.state.trans (Hub.exec_silent hx ho).symm) ?_
    (fun j hj => Pool.getElem?_resume_of_ne hj) (fun _ _ _ hc _ => hc) nofun fun _ i' c hc => ?_⟩
  · rw [HubWorld.appHistory_commit, ho]
    exact h.history.trans (List.append_nil _).symm
  · have hself : (q.resume n i (k (.ok b))).running[n]? = some (i, k (.ok b)) :=
      Pool.getElem?_resume hr
    cases hself.symm.trans hc
    exact hout

/-- A call begins in the application with a statement, and goes on there or outside. -/
private theorem Mirrors.enters (h : Mirrors cfg entered q p)
    (hr : q.running[n]? = some (i, .step o k)) {i' : AppInvocation} {a : AppStmt}
    {k' : Except ServiceError a.Res → AppCall Unit} {r : a.Res}
    (hcode : i'.code cfg = .step a k') (ho : o.toApp q.world.shared = some a)
    (hax : AppState.exec cfg a q.world.shared.app = .ok (r, s.app))
    (hgo : Outside cfg (k (.ok b)) ∨ k (.ok b) = (k' (.ok r)).embed appInHub) :
    Followed cfg p { q.resume n i (k (.ok b)) with world := q.world.commit n i o s } := by
  have hself : (q.resume n i (k (.ok b))).running[n]? = some (i, k (.ok b)) :=
    Pool.getElem?_resume hr
  have hrun : p.run (appSystem cfg) [.invoke i', .advance p.running.length] =
      ⟨p.world.commit p.running.length i' a s.app, p.running ++ [(i', k' (.ok r))]⟩ :=
    Pool.run_enter hcode (h.state ▸ hax)
  have hhistory : AppWorld.history (p.world.commit p.running.length i' a s.app) =
      HubWorld.appHistory (q.world.commit n i o s) := by
    rw [AppWorld.history_commit, HubWorld.appHistory_commit, ho, h.history, h.state]
    rfl
  have hkept (j : Nat) (i₀ : AppInvocation) (c : AppCall Unit)
      (hc : p.running[j]? = some (i₀, c)) :
      (p.running ++ [(i', k' (.ok r))])[j]? = some (i₀, c) :=
    (List.getElem?_append_left (List.getElem?_eq_some_iff.mp hc).1).trans hc
  rcases hgo with hout | hin
  · refine ⟨Function.update entered n none, [.invoke i', .advance p.running.length], ?_⟩
    rw [hrun]
    refine h.put n none rfl hhistory (fun j hj => Pool.getElem?_resume_of_ne hj)
      (fun j i₀ c hc _ => hkept j i₀ c hc) nofun fun _ i₀ c hc => ?_
    cases hself.symm.trans hc
    exact hout
  · refine ⟨Function.update entered n (some p.running.length),
      [.invoke i', .advance p.running.length], ?_⟩
    rw [hrun]
    refine h.put n (some p.running.length) rfl hhistory (fun j hj => Pool.getElem?_resume_of_ne hj)
      (fun j i₀ c hc _ => hkept j i₀ c hc) (fun m hm => ?_) nofun
    obtain rfl := Option.some.inj hm
    exact ⟨Or.inr le_rfl, i, i', k' (.ok r), hself.trans (hin ▸ rfl), by simp⟩

/-- A request is a call of the application from the start; others are outside. -/
private theorem Mirrors.invoked (h : Mirrors cfg entered q p) (i : HubInvocation) :
    Followed cfg p { q with running := q.running ++ [(i, i.code cfg)] } := by
  have hq (j : Nat) (hj : j ≠ q.running.length) :
      (q.running ++ [(i, i.code cfg)])[j]? = q.running[j]? := by
    grind
  have hself : (q.running ++ [(i, i.code cfg)])[q.running.length]? = some (i, i.code cfg) := by
    simp
  have outside (hi : Outside cfg (i.code cfg)) :
      Followed cfg p { q with running := q.running ++ [(i, i.code cfg)] } := by
    refine ⟨_, [], h.put q.running.length none h.state h.history hq (fun _ _ _ hc _ => hc)
      nofun fun _ i' c hc => ?_⟩
    cases hself.symm.trans hc
    exact hi
  cases i with
  | request a ha =>
      refine ⟨_, [.invoke a], h.put q.running.length (some p.running.length) h.state h.history
        hq (fun k i c hc _ => ?_) (fun m hm => ?_) nofun⟩
      · exact (List.getElem?_append_left (List.getElem?_eq_some_iff.mp hc).1).trans hc
      · obtain rfl := Option.some.inj hm
        exact ⟨Or.inr le_rfl, _, a, a.code cfg, hself, by simp [Pool.step, appSystem]⟩
  | connect handshake => exact outside (.connecting (handleConnection_connects handshake))
  | disconnect socket => exact outside (.leaving socket)

/-- A socket that closes is nothing to the application, or a call of it begins. -/
private theorem Mirrors.closed (h : Mirrors cfg entered q p) (hW : Wired q.world) {socket : Nat}
    {k : Except ServiceError (Option (Id × Bool)) → HubCall Unit} {b : Option (Id × Bool)}
    (hr : q.running[n]? = some (i, .step (.close socket) k))
    (hk : Call.step (σ := hubSignature) (.close socket) k = Hub.handleDisconnect cfg socket)
    (hx : Hub.exec cfg verify (.close socket) q.world.shared = .ok (b, s)) :
    Followed cfg p
      { q.resume n i (k (.ok b)) with world := q.world.commit n i (.close socket) s } := by
  have hb : (q.world.shared.close socket).1 = b := congrArg Prod.fst (Except.ok.inj hx)
  obtain rfl : (q.world.shared.close socket).2 = s := congrArg Prod.snd (Except.ok.inj hx)
  cases hk
  cases b with
  | none => exact h.silent hr hx (by simp [HubStmt.toApp, hb]) (.connecting trivial)
  | some left =>
      obtain ⟨userId, elsewhere⟩ := left
      have hroom := (hW.rooms userId socket).mpr (Hub.close_left hb)
      have hcode : (AppInvocation.disconnect userId).code cfg =
        .step (.dropSocket userId) _ := rfl
      refine h.enters hr hcode (by simp [HubStmt.toApp, hb])
        (Hub.close_app hb (hW.counted userId) hroom) (Or.inr ?_)
      cases elsewhere with
      | true => rfl
      | false =>
          show Call.recover _ _ = Call.embed appInHub (Call.recover _ _)
          exact (Call.embed_recover (m := appInHub) _ fun _ => .done ()).symm

/-- Every move over sockets is some moves of the application. -/
private theorem Mirrors.step (h : Mirrors cfg entered q p) (hW : Wired q.world) (m : HubMove) :
    Followed cfg p (q.step (hubSystem cfg verify) m) := by
  have hstep : Pool.Stepped (hubSystem cfg verify) q m _ := Pool.Stepped.of_step m
  generalize q.step (hubSystem cfg verify) m = q' at hstep
  cases hstep with
  | idle => exact ⟨entered, [], h⟩
  | invoked i => exact h.invoked i
  | @executed n i o k b s hr hx =>
      cases hn : entered n with
      | some m => exact h.served hr hn hx
      | none =>
          generalize hstep : Call.step (σ := hubSignature) o k = c at hr
          cases h.outside n i c hn hr with
          | connecting huses =>
              subst hstep
              have hout : Outside cfg (k (.ok b)) := .connecting (huses.2 _)
              cases ho : o.toApp q.world.shared with
              | none => exact h.silent hr hx ho hout
              | some a =>
                  cases o with
                  | join socket userId =>
                      obtain ⟨rfl, hax⟩ := Hub.join_app ho
                      cases hx
                      have hcode : (AppInvocation.connect userId).code cfg =
                        .step (.joinRoom userId) _ := rfl
                      exact h.enters hr hcode ho hax (Or.inl hout)
                  | app a => cases huses.1
                  | close socket => cases huses.1
                  | _ => cases ho
          | leaving socket =>
              obtain ⟨rfl, -⟩ := Call.step.inj hstep
              exact h.closed hW (hstep.symm ▸ hr) hstep (show Hub.exec cfg verify _ _ = _ from hx)
  | @failed n i o k e hr hx =>
      refine h.refusal e hr fun a ha m i' k' hpc => ⟨[.advance m], ?_⟩
      subst ha
      refine Pool.step_failed hpc ?_
      rw [h.state]
      exact Hub.exec_app_error (show Hub.exec cfg verify _ _ = _ from hx)
  | @refused n i o k hr hx =>
      refine h.refusal _ hr fun a ha m i' k' hpc => ⟨[.refuse m], ?_⟩
      subst ha
      exact Pool.step_refused hpc hx

end Mirrors

section Run
variable (cfg : Config) (verify : String → Millis → Option Id)

/-- Whatever runs over sockets, the application is in a state, and has a history, that it
has in some run of its own calls, from connecting to disconnecting. -/
theorem sockets_refine (start : AppState) (ms : List HubMove) :
    let w := ((hubPool start).run (hubSystem cfg verify) ms).world
    ∃ ms' : List AppMove,
      let v := ((Pool.init { start with rooms := fun _ => 0 }).run (appSystem cfg) ms').world
      v.shared = w.shared.app ∧ AppWorld.history v = HubWorld.appHistory w := by
  intro w
  let R := fun q p => (∃ before, q = (hubPool start).run (hubSystem cfg verify) before) ∧
    ∃ entered, Mirrors cfg entered q p
  have hstep (q) (p : AppPool) (m : HubMove) (h : R q p) : ∃ ms',
      R (q.step (hubSystem cfg verify) m) (p.run (appSystem cfg) ms') := by
    obtain ⟨⟨before, rfl⟩, entered, hm⟩ := h
    obtain ⟨entered', ms', hm'⟩ := hm.step (wired_run cfg verify start before).2 m
    refine ⟨ms', ⟨before ++ [m], ?_⟩, entered', hm'⟩
    rw [Pool.run_append]
    rfl
  have hinit : R (hubPool start) (.init { start with rooms := fun _ => 0 }) := by
    refine ⟨⟨[], rfl⟩, fun _ => none, rfl, rfl, ?_, ?_, ?_⟩
    · exact fun _ _ _ hn => nomatch hn
    · exact fun _ _ hn => nomatch hn
    · exact fun _ _ _ _ hc => nomatch hc
  obtain ⟨ms', -, entered, hm⟩ := Pool.run_simulates hstep hinit ms
  exact ⟨ms', hm.state, hm.history⟩

end Run

end Reedr
