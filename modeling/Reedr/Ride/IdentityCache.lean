import Reedr.Ride.Services
import Reedr.Library.Alone
import Reedr.Library.History
import Reedr.Library.Obligation

/-!
# Driver identities in Redis

The cache of driver identities as texts under keys. A lookup asks the cache,
then the database, and stores what the database said; that may be `null`, and it
may be stored long after the database was asked. A stored `null` and a text that
does not parse both read as a miss.

## Implementation notes

`JSON` is a parameter: all that is used of it is that what it writes it reads
back. An entry may be lost or spoilt at any time, so its lifetime is only passed on.
-/

namespace Reedr.IdentityCache
open Relational Interleaving

/-- `JSON.stringify` and `JSON.parse` on one type of values and `null`; the parser
throws on some texts. -/
structure Json (α : Type) where
  stringify : Option α → String
  parse : String → Option (Option α)
  parse_stringify : ∀ v, parse (stringify v) = some v

structure CacheBackend where
  redis : String → Option String
  driverProfiles : Table DriverProfile

/-- A call hands its result to its caller by `respond`. -/
inductive CacheStmt where
  | get (key : String)
  | set (key value : String) (ttlSeconds : Nat)
  | findUnique (userId : Id)
  | createDriverProfile (p : DriverProfile)
  | lose (key : String)
  | spoil (key text : String)
  | respond (identity : Option DriverIdentity)
  deriving DecidableEq

namespace CacheStmt

abbrev Res : CacheStmt → Type
  | get _ => Option String
  | findUnique _ => Option DriverIdentity
  | _ => Unit

def external : CacheStmt → Bool
  | get _ | set _ _ _ | findUnique _ | createDriverProfile _ => true
  | _ => false

end CacheStmt

abbrev cacheSignature : Signature := ⟨CacheStmt, CacheStmt.Res⟩

abbrev CacheCall (α : Type) := Call cacheSignature ServiceError α

private def perform (o : CacheStmt) : CacheCall o.Res := Call.perform (σ := cacheSignature) o

namespace CacheBackend

/-- An uncached query: `findUnique` on the user with the two columns selected. -/
def findIdentity (s : CacheBackend) (userId : Id) : Option DriverIdentity :=
  (s.driverProfiles.find? fun p => p.userId = userId).map fun p => ⟨p.id, p.userId⟩

/-- What each statement does. A text that parses does not spoil an entry. -/
def exec (json : Json DriverIdentity) :
    (o : CacheStmt) → CacheBackend → Except ServiceError (o.Res × CacheBackend)
  | .get key, s => .ok (s.redis key, s)
  | .set key value _, s => .ok ((), { s with redis := Function.update s.redis key (some value) })
  | .findUnique userId, s => .ok (s.findIdentity userId, s)
  | .createDriverProfile p, s =>
      match s.driverProfiles.create p with
      | .ok driverProfiles => .ok ((), { s with driverProfiles })
      | .error v => .error (.constraint v)
  | .lose key, s => .ok ((), { s with redis := Function.update s.redis key none })
  | .spoil key text, s =>
      match json.parse text with
      | none => .ok ((), { s with redis := Function.update s.redis key (some text) })
      | some _ => .ok ((), s)
  | .respond _, s => .ok ((), s)

end CacheBackend

namespace CacheService
variable {α : Type} (json : Json α)

def get (key : String) : CacheCall (Option α) := do
  match ← perform (.get key) with
  | none => return none
  | some raw =>
      match json.parse raw with
      | some value => return value
      -- The parser threw; the warning it is logged with is left out.
      | none => return none

def set (key : String) (value : Option α) (ttlSeconds : Nat) : CacheCall Unit :=
  perform (.set key (json.stringify value) ttlSeconds)

def getOrSet (key : String) (ttlSeconds : Nat) (factory : CacheCall (Option α)) :
    CacheCall (Option α) := do
  match ← get json key with
  | some cached => return some cached
  | none =>
      let value ← factory
      set json key value ttlSeconds
      return value

end CacheService

namespace DriversService

def driverIdentityCacheTtlSeconds : Nat := 300

def driverIdentityCacheKey (userId : Id) : String := "driver-identity:" ++ userId

def findIdentityByUserId (json : Json DriverIdentity) (userId : Id) :
    CacheCall (Option DriverIdentity) :=
  CacheService.getOrSet json (driverIdentityCacheKey userId) driverIdentityCacheTtlSeconds
    (perform (.findUnique userId))

end DriversService

/-- A lookup, an approval as far as driver profiles go, and the two ways in which an
entry stops being there. -/
inductive CacheInvocation where
  | findIdentityByUserId (userId : Id)
  | review (p : DriverProfile)
  | lose (key : String)
  | spoil (key text : String)

def CacheInvocation.code (json : Json DriverIdentity) : CacheInvocation → CacheCall Unit
  | .findIdentityByUserId userId => do
      let identity ← DriversService.findIdentityByUserId json userId
      perform (.respond identity)
  | .review p => perform (.createDriverProfile p)
  | .lose key => perform (.lose key)
  | .spoil key text => perform (.spoil key text)

def cacheSystem (json : Json DriverIdentity) :
    System cacheSignature ServiceError CacheBackend CacheInvocation where
  code := CacheInvocation.code json
  exec := CacheBackend.exec json
  external := CacheStmt.external
  outage := .outage

abbrev CacheWorld := World cacheSignature CacheBackend CacheInvocation
abbrev CachePool := Pool cacheSignature ServiceError CacheBackend CacheInvocation
abbrev CacheMove := Move CacheInvocation

/-- No call yet and nothing cached. -/
def cachePool (driverProfiles : Table DriverProfile) : CachePool :=
  Pool.init { redis := fun _ => none, driverProfiles }

/-- What `CacheService.get` makes of an entry. -/
def Json.read {α : Type} (json : Json α) (raw : Option String) : Option α :=
  raw.bind fun raw => (json.parse raw).join

theorem Json.read_stringify {α : Type} (json : Json α) (v : Option α) :
    json.read (some (json.stringify v)) = v := by
  simp [read, json.parse_stringify]

/-- A lookup goes by what it reads. -/
theorem DriversService.findIdentityByUserId_eq (json : Json DriverIdentity) (userId : Id) :
    findIdentityByUserId json userId =
      (perform (.get (driverIdentityCacheKey userId)) >>= fun raw =>
        match json.read raw with
        | some cached => .done (some cached)
        | none => do
            let value ← perform (.findUnique userId)
            perform (.set (driverIdentityCacheKey userId) (json.stringify value)
              driverIdentityCacheTtlSeconds)
            return value) := by
  unfold findIdentityByUserId CacheService.getOrSet CacheService.get CacheService.set
  rw [bind_assoc]
  congr 1
  funext raw
  cases raw with
  | none => rfl
  | some raw =>
      cases h : json.parse raw with
      | none => simp [Json.read, h]
      | some value =>
          cases value with
          | none => simp [Json.read, h]
          | some identity =>
              simp [Json.read, h]
              rfl

theorem DriversService.driverIdentityCacheKey_injective {userId userId' : Id}
    (h : driverIdentityCacheKey userId = driverIdentityCacheKey userId') : userId = userId' :=
  (String.append_right_inj "driver-identity:").mp h

open IdentityCache.DriversService

namespace CacheBackend
variable {s s' : CacheBackend} {userId : Id}

theorem findIdentity_of_mem {p : DriverProfile} (hp : p ∈ s.driverProfiles) :
    s.findIdentity p.userId = some ⟨p.id, p.userId⟩ := by
  have hfind : s.driverProfiles.find? (fun q => q.userId = p.userId) = some p := by
    apply Table.find?_of_unique hp (decide_eq_true rfl)
    intro q hq hu
    exact DriverProfile.eq_of_userId hq hp (of_decide_eq_true hu)
  unfold findIdentity
  rw [hfind]
  rfl

theorem findIdentity_some {v : DriverIdentity} (h : s.findIdentity userId = some v) :
    ∃ p ∈ s.driverProfiles, p.userId = userId ∧ v = ⟨p.id, p.userId⟩ := by
  obtain ⟨p, hfind, rfl⟩ := Option.map_eq_some_iff.mp h
  obtain ⟨hp, hu⟩ := Table.find?_some hfind
  exact ⟨p, hp, of_decide_eq_true hu, rfl⟩

/-- No profile is lost or changed. -/
def Grown (s s' : CacheBackend) : Prop := ∀ p ∈ s.driverProfiles, p ∈ s'.driverProfiles

theorem Grown.findIdentity {v : DriverIdentity} (h : s.Grown s')
    (hv : s.findIdentity userId = some v) : s'.findIdentity userId = some v := by
  obtain ⟨p, hp, rfl, rfl⟩ := findIdentity_some hv
  exact findIdentity_of_mem (h p hp)

theorem Grown.exec {json : Json DriverIdentity} {o : CacheStmt} {b : o.Res}
    (h : CacheBackend.exec json o s = .ok (b, s')) : s.Grown s' := by
  cases o with
  | createDriverProfile p =>
      simp only [CacheBackend.exec] at h
      split at h
      · next driverProfiles hcreate =>
          cases h
          exact fun q hq => (Table.mem_create hcreate q).mpr (Or.inl hq)
      · cases h
  | spoil key text =>
      simp only [CacheBackend.exec] at h
      split at h <;> cases h <;> exact fun _ hp => hp
  | _ => cases h; exact fun _ hp => hp

/-- The entry of a user, as a lookup reads it. -/
def cached (json : Json DriverIdentity) (s : CacheBackend) (userId : Id) :
    Option DriverIdentity :=
  json.read (s.redis (driverIdentityCacheKey userId))

end CacheBackend

/-- What a call knows when it executes a statement: a lookup stores what the database
said, and answers with that or with what it read in the cache. -/
def LookupFact (json : Json DriverIdentity) :
    CacheInvocation → List (CacheStmt × CacheBackend) → CacheStmt → Prop
  | .findIdentityByUserId userId, l, .set key value _ =>
      key = driverIdentityCacheKey userId ∧
        ∃ x ∈ l, value = json.stringify (x.2.findIdentity userId)
  | .findIdentityByUserId userId, l, .respond identity =>
      ∃ x ∈ l, identity = x.2.findIdentity userId ∨
        identity = x.2.cached json userId ∧ identity.isSome
  | .findIdentityByUserId _, _, .get _ | .findIdentityByUserId _, _, .findUnique _ => True
  | .review p, _, .createDriverProfile q => q = p
  | .lose _, _, .lose _ | .spoil _ _, _, .spoil _ _ => True
  | _, _, _ => False

/-- A lookup ends when it has answered, or throws because something was out of reach. -/
def LookupEnd : CacheInvocation → List (CacheStmt × CacheBackend) → Except ServiceError Unit →
    Prop
  | .findIdentityByUserId _, l, .ok () => ∃ x ∈ l, ∃ identity, x.1 = .respond identity
  | .findIdentityByUserId _, _, .error e => e = .outage
  | _, _, _ => True

section Calls
variable {json : Json DriverIdentity}

private theorem outage_of_failsIn {o : CacheStmt} {e : ServiceError}
    (ho : ∀ p, o ≠ .createDriverProfile p)
    (h : (cacheSystem json).FailsIn (fun _ => True) o e) : e = .outage := by
  rcases h with ⟨s, -, hx⟩ | ⟨-, he⟩
  · cases o with
    | createDriverProfile p => exact absurd rfl (ho p)
    | spoil key text =>
        simp only [cacheSystem, CacheBackend.exec] at hx
        split at hx <;> cases hx
    | _ => cases hx
  · exact he

private theorem lookup_recalls (userId : Id) :
    ((cacheSystem json).code (.findIdentityByUserId userId)).Recalls (cacheSystem json)
      (fun _ => True) (LookupFact json (.findIdentityByUserId userId))
      (LookupEnd (.findIdentityByUserId userId)) [] := by
  have answers (l : List (CacheStmt × CacheBackend)) (identity : Option DriverIdentity)
      (h : LookupFact json (.findIdentityByUserId userId) l (.respond identity)) :
      (perform (.respond identity)).Recalls (cacheSystem json) (fun _ => True)
        (LookupFact json (.findIdentityByUserId userId))
        (LookupEnd (.findIdentityByUserId userId)) l := by
    refine ⟨h, fun s _ s' _ _ => ?_, fun e he => outage_of_failsIn (by simp) he⟩
    exact ⟨(.respond identity, s), by simp, identity, rfl⟩
  show (findIdentityByUserId json userId >>= fun identity => perform (.respond identity)).Recalls
    _ _ _ _ _
  rw [findIdentityByUserId_eq, bind_assoc]
  apply Call.Recalls.perform_bind trivial _ fun e he => outage_of_failsIn (by simp) he
  intro s raw _ _ hget
  obtain rfl : s.redis (driverIdentityCacheKey userId) = raw :=
    congrArg Prod.fst (Except.ok.inj hget)
  split
  · next v hread =>
      apply answers
      exact ⟨_, List.mem_singleton_self _, Or.inr ⟨hread.symm, rfl⟩⟩
  · rw [bind_assoc]
    apply Call.Recalls.perform_bind trivial _ fun e he => outage_of_failsIn (by simp) he
    intro s₁ value _ _ hfind
    obtain rfl : s₁.findIdentity userId = value := congrArg Prod.fst (Except.ok.inj hfind)
    rw [bind_assoc]
    apply Call.Recalls.perform_bind _ _ fun e he => outage_of_failsIn (by simp) he
    · exact ⟨rfl, (.findUnique userId, s₁), by simp, rfl⟩
    · intro s₂ _ _ _ _
      apply answers
      exact ⟨(.findUnique userId, s₁), by simp, Or.inl rfl⟩

private theorem code_recalls (i : CacheInvocation) :
    ((cacheSystem json).code i).Recalls (cacheSystem json) (fun _ => True) (LookupFact json i)
      (LookupEnd i) [] := by
  cases i with
  | findIdentityByUserId userId => exact lookup_recalls userId
  | review p => exact ⟨rfl, fun _ _ _ _ _ => trivial, fun _ _ => trivial⟩
  | lose key => exact ⟨trivial, fun _ _ _ _ _ => trivial, fun _ _ => trivial⟩
  | spoil key text => exact ⟨trivial, fun _ _ _ _ _ => trivial, fun _ _ => trivial⟩

private theorem lookups_recall : MemoryInvariant (cacheSystem json) (fun _ => True) fun i l c =>
    c.Recalls (cacheSystem json) (fun _ => True) (LookupFact json i) (LookupEnd i) l :=
  .of_recalls (fun _ _ => trivial) code_recalls

end Calls

/-- A cached identity is the one the database has, and an answer is what the database
would have said during the call. -/
structure CacheKept (json : Json DriverIdentity) (w : CacheWorld) : Prop where
  cached : ∀ userId v, w.shared.cached json userId = some v → w.shared.findIdentity userId = some v
  grown : ∀ c ∈ w.trace, c.before.Grown w.shared
  answered : ∀ c ∈ w.trace, ∀ userId identity, c.inv = .findIdentityByUserId userId →
    c.op = .respond identity → ∃ x ∈ memory c.call w.trace, identity = x.2.findIdentity userId

section Kept
variable {json : Json DriverIdentity} {w : CacheWorld} {n : Nat} {i : CacheInvocation}
variable {o : CacheStmt} {s : CacheBackend} {b : o.Res}

/-- A statement that writes no entry of a user, and grows the profiles, keeps entries true. -/
private theorem cached_keep (h : CacheKept json w) (hgrown : w.shared.Grown s)
    (hread : ∀ userId v, s.cached json userId = some v → w.shared.cached json userId = some v) :
    ∀ userId v, s.cached json userId = some v → s.findIdentity userId = some v :=
  fun userId v hv => hgrown.findIdentity (h.cached userId v (hread userId v hv))

private theorem cached_update {key : String} {raw : Option String}
    (hs : s.redis = Function.update w.shared.redis key raw) {userId : Id} {v : DriverIdentity}
    (hv : s.cached json userId = some v) :
    w.shared.cached json userId = some v ∨
      key = driverIdentityCacheKey userId ∧ json.read raw = some v := by
  unfold CacheBackend.cached at hv
  rw [hs, Function.update_apply] at hv
  split at hv
  · next hkey => exact Or.inr ⟨hkey.symm, hv⟩
  · exact Or.inl hv

/-- An entry whose new text says nothing is one that is no longer there. -/
private theorem cached_lost (h : CacheKept json w) (hgrown : w.shared.Grown s) {key : String}
    {raw : Option String} (hraw : json.read raw = none)
    (hs : s.redis = Function.update w.shared.redis key raw) :
    ∀ userId v, s.cached json userId = some v → s.findIdentity userId = some v := by
  apply cached_keep h hgrown
  intro userId v hv
  rcases cached_update hs hv with hold | ⟨-, hnew⟩
  · exact hold
  · exact absurd (hraw.symm.trans hnew) (by simp)

private theorem cached_commit (h : CacheKept json w)
    (hJ : LookupFact json i (memory n w.trace) o)
    (hx : CacheBackend.exec json o w.shared = .ok (b, s)) :
    ∀ userId v, s.cached json userId = some v → s.findIdentity userId = some v := by
  have hgrown := CacheBackend.Grown.exec hx
  cases o with
  | set key value ttlSeconds =>
      cases i with
      | findIdentityByUserId userId =>
          obtain ⟨rfl, x, hxmem, rfl⟩ := hJ
          obtain ⟨c, hc, -, rfl⟩ := mem_memory.mp hxmem
          have hs : s.redis = Function.update w.shared.redis (driverIdentityCacheKey userId) _ :=
            (congrArg (fun r : _ × CacheBackend => r.2.redis) (Except.ok.inj hx)).symm
          intro userId' v hv
          rcases cached_update hs hv with hold | ⟨hkey, hnew⟩
          · exact hgrown.findIdentity (h.cached userId' v hold)
          · obtain rfl := driverIdentityCacheKey_injective hkey
            rw [json.read_stringify] at hnew
            exact hgrown.findIdentity ((h.grown c hc).findIdentity hnew)
      | _ => exact hJ.elim
  | lose key =>
      have hlost : json.read none = none := rfl
      apply cached_lost h hgrown hlost
      exact (congrArg (fun r : _ × CacheBackend => r.2.redis) (Except.ok.inj hx)).symm
  | spoil key text =>
      simp only [CacheBackend.exec] at hx
      split at hx
      · next hparse =>
          cases hx
          have hlost : json.read (some text) = none := by simp [Json.read, hparse]
          exact cached_lost h hgrown hlost rfl
      · cases hx
        exact h.cached
  | createDriverProfile p =>
      apply cached_keep h hgrown
      simp only [CacheBackend.exec] at hx
      split at hx
      · cases hx
        exact fun _ _ hv => hv
      · cases hx
  | _ => cases hx; exact h.cached

/-- What one executed statement preserves. -/
private theorem cacheKept_commit (h : w.Always (CacheKept json))
    (hJ : LookupFact json i (memory n w.trace) o)
    (hx : CacheBackend.exec json o w.shared = .ok (b, s)) :
    CacheKept json (w.commit n i o s) where
  cached := cached_commit h.now hJ hx
  grown := by
    intro c hc
    have hgrown := CacheBackend.Grown.exec hx
    rw [World.commit_trace, List.mem_append, List.mem_singleton] at hc
    rcases hc with hc | rfl
    · exact fun p hp => hgrown p (h.now.grown c hc p hp)
    · exact hgrown
  answered := by
    intro c hc userId identity hinv hop
    rw [World.commit_trace] at hc ⊢
    rw [memory_append]
    rw [List.mem_append, List.mem_singleton] at hc
    rcases hc with hc | rfl
    · obtain ⟨x, hxmem, hid⟩ := h.now.answered c hc userId identity hinv hop
      exact ⟨x, List.mem_append_left _ hxmem, hid⟩
    · obtain rfl : i = .findIdentityByUserId userId := hinv
      obtain rfl : o = .respond identity := hop
      obtain ⟨x, hxmem, hid⟩ := hJ
      refine ⟨x, List.mem_append_left _ hxmem, ?_⟩
      rcases hid with hid | ⟨hid, hsome⟩
      · exact hid
      · -- A hit was true in the state it was read in.
        obtain ⟨trace, hkept⟩ := h.of_memory hxmem
        obtain ⟨v, hv⟩ := Option.isSome_iff_exists.mp hsome
        rw [hv]
        exact (hkept.cached userId v (hid.symm.trans hv)).symm

theorem cacheKept_always (json : Json DriverIdentity) (driverProfiles : Table DriverProfile)
    (ms : List CacheMove) :
    ((cachePool driverProfiles).run (cacheSystem json) ms).world.Always (CacheKept json) := by
  apply lookups_recall.always_run (Q := fun _ _ _ => True)
  · intro w n i o k b s h hT _ hx
    exact cacheKept_commit h hT.1 hx
  · exact MemoryInvariant.holds_init trivial
  · apply World.always_init
    constructor
    · exact fun userId v hv => nomatch hv
    · exact fun c hc => absurd hc List.not_mem_nil
    · exact fun c hc => absurd hc List.not_mem_nil
  · exact Along.of_invariant (G := fun _ => True) (fun _ _ _ => trivial)
      (fun _ _ _ _ _ _ _ _ _ => trivial) trivial ms

end Kept

/-- Call `n` has answered with this identity. -/
def Answers (w : CacheWorld) (n : Nat) (identity : Option DriverIdentity) : Prop :=
  .respond identity ∈ executed n w.trace

instance (w : CacheWorld) (n : Nat) (identity : Option DriverIdentity) :
    Decidable (Answers w n identity) :=
  inferInstanceAs (Decidable (_ ∈ executed n w.trace))

/-- The answer of call `n`, a lookup begun in state `before`: it finds the profile that was
there, it is of no other user's, and an uncached query would have given it during the
call. -/
structure AnswerAgrees (before : CacheBackend) (w : CacheWorld) (n : Nat) (userId : Id)
    (identity : Option DriverIdentity) : Prop where
  fresh : ∀ p ∈ before.driverProfiles, p.userId = userId → identity = some ⟨p.id, p.userId⟩
  own : ∀ v, identity = some v →
    ∃ p ∈ w.shared.driverProfiles, p.userId = userId ∧ v = ⟨p.id, p.userId⟩
  uncached : ∃ x ∈ memory n w.trace, identity = x.2.findIdentity userId

/-- Whatever was cached, lost, spoilt or approved before and meanwhile, a lookup agrees with
an uncached query; it ends with an answer unless something was out of reach. -/
theorem lookup_agrees (json : Json DriverIdentity) (driverProfiles : Table DriverProfile)
    (ms₁ ms₂ : List CacheMove) (userId : Id) :
    let p := (cachePool driverProfiles).run (cacheSystem json) ms₁
    let p' := p.run (cacheSystem json) (.invoke (.findIdentityByUserId userId) :: ms₂)
    let n := p.running.length
    (∀ identity, Answers p'.world n identity →
        AnswerAgrees p.world.shared p'.world n userId identity) ∧
      ∀ i c, p'.running[n]? = some (i, c) →
        (c = .done () → ∃ identity, Answers p'.world n identity) ∧
          ∀ e, c = .fail e → e = .outage := by
  intro p p' n
  have hp : MemoryInvariant.Holds _ _ p :=
    lookups_recall.holds_run (MemoryInvariant.holds_init trivial) ms₁
  have hp' : MemoryInvariant.Holds _ _ p' := lookups_recall.holds_run hp _
  have hinvoked : p'.invoked[n]? = some (.findIdentityByUserId userId) :=
    p.invoked_run_invoke _ ms₂
  constructor
  · intro identity hanswer
    have hattributed : p'.Attributed :=
      Pool.attributed_run (Pool.attributed_run (Pool.attributed_init _) ms₁) _
    have hkept : p'.world.Always (CacheKept json) := by
      have := cacheKept_always json driverProfiles
        (ms₁ ++ .invoke (.findIdentityByUserId userId) :: ms₂)
      rwa [Pool.run_append] at this
    have hexec : ∀ {o s b s'}, (cacheSystem json).exec o s = .ok (b, s') →
        CacheBackend.Grown s s' := CacheBackend.Grown.exec
    obtain ⟨after, htrace, hafter, -⟩ := run_trace_after (R := CacheBackend.Grown)
      (fun _ _ hq => hq) (fun h₁ h₂ q hq => h₂ q (h₁ q hq)) hexec p
      (.invoke (.findIdentityByUserId userId) :: ms₂)
    obtain ⟨c, hc, hcall, hop⟩ := mem_executed.mp hanswer
    have hinv : c.inv = .findIdentityByUserId userId :=
      Option.some.inj
        (((hattributed c hc).symm.trans (congrArg (p'.invoked[·]?) hcall)).trans hinvoked)
    obtain ⟨x, hx, hid⟩ := hkept.now.answered c hc userId identity hinv hop
    rw [hcall] at hx
    -- What the lookup saw, it saw after it began and before now.
    obtain ⟨d, hd, hdcall, rfl⟩ := mem_memory.mp hx
    have hbegun : p.world.shared.Grown d.before := by
      apply hafter
      rw [htrace, List.mem_append] at hd
      rcases hd with hold | hnew
      · exact absurd (hp.known d hold) (by omega)
      · exact hnew
    constructor
    · rintro q hq rfl
      exact hid.trans (CacheBackend.findIdentity_of_mem (hbegun q hq))
    · rintro v rfl
      exact CacheBackend.findIdentity_some ((hkept.now.grown d hd).findIdentity hid.symm)
    · exact ⟨_, hx, hid⟩
  · intro i c hrun
    obtain rfl : i = .findIdentityByUserId userId := by
      have : p'.invoked[n]? = some i := by simp [Pool.invoked, hrun]
      exact Option.some.inj (this.symm.trans hinvoked)
    have hend := hp'.thread hrun
    constructor
    · rintro rfl
      obtain ⟨x, hx, identity, hop⟩ := hend
      obtain ⟨c, hc, hcall, rfl⟩ := mem_memory.mp hx
      exact ⟨identity, mem_executed.mpr ⟨c, hc, hcall, hop⟩⟩
    · rintro e rfl
      exact hend

section Text

/-- The characters of a JSON string up to its closing quote. -/
def quoted : List Char → List Char
  | [] => ['\x22']
  | c :: rest => if c = '\x22' ∨ c = '\x5c' then '\x5c' :: c :: quoted rest else c :: quoted rest

/-- The string that ends at the first quote that is not escaped, and what follows it. -/
def unquoted : Bool → List Char → Option (List Char × List Char)
  | _, [] => none
  | true, c :: rest => (unquoted false rest).map fun r => (c :: r.1, r.2)
  | false, c :: rest =>
      if c = '\x22' then some ([], rest)
      else if c = '\x5c' then unquoted true rest
      else (unquoted false rest).map fun r => (c :: r.1, r.2)

theorem unquoted_quoted (l rest : List Char) :
    unquoted false (quoted l ++ rest) = some (l, rest) := by
  induction l with
  | nil => simp [quoted, unquoted]
  | cons c l ih =>
      unfold quoted
      split
      · simp [unquoted, ih]
      · next h =>
          rw [not_or] at h
          simp [unquoted, h.1, h.2, ih]

/-- What follows a given text. -/
def following (pre : String) (l : List Char) : Option (List Char) :=
  if pre.toList <+: l then some (l.drop pre.toList.length) else none

theorem following_append (pre : String) (l : List Char) :
    following pre (pre.toList ++ l) = some l := by
  simp [following]

end Text

/-- The JSON of an identity, with `id` before `userId`. -/
def identityChars (v : DriverIdentity) : List Char :=
  '\x7b' :: ("\"id\":\"".toList ++ (quoted v.id.toList ++
    (",\"userId\":\"".toList ++ (quoted v.userId.toList ++ "\x7d".toList))))

def parseIdentity (l : List Char) : Option DriverIdentity :=
  if l.head? = some '\x7b' then
    (following "\"id\":\"" l.tail).bind fun rest =>
      (unquoted false rest).bind fun id =>
        (following ",\"userId\":\"" id.2).bind fun rest =>
          (unquoted false rest).bind fun userId =>
            (following "\x7d" userId.2).map fun _ => ⟨String.ofList id.1, String.ofList userId.1⟩
  else none

theorem parseIdentity_identityChars (v : DriverIdentity) :
    parseIdentity (identityChars v) = some v := by
  have hlast : following "\x7d" "\x7d".toList = some [] := by decide
  unfold parseIdentity identityChars
  simp only [List.head?_cons, if_true, List.tail_cons, following_append, unquoted_quoted,
    Option.bind_some, hlast, Option.map_some, String.ofList_toList]

theorem identityChars_ne_null (v : DriverIdentity) : String.ofList (identityChars v) ≠ "null" := by
  intro h
  have hnull : "null".toList = ['n', 'u', 'l', 'l'] := by decide
  have hchars := congrArg String.toList h
  rw [String.toList_ofList, hnull] at hchars
  exact absurd (List.cons.inj hchars).1 (by decide)

def identityJson : Json DriverIdentity where
  stringify v := v.elim "null" fun v => String.ofList (identityChars v)
  parse text := if text = "null" then some none else (parseIdentity text.toList).map some
  parse_stringify v := by
    cases v with
    | none => rfl
    | some v =>
        rw [Option.elim_some, if_neg (identityChars_ne_null v), String.toList_ofList,
          parseIdentity_identityChars]
        rfl

/-- A lookup of a user from before the approval stores the `null` it found after a later
one has stored the profile, whose text is spoilt and read in between. -/
def lateNull (p : DriverProfile) : List CacheMove :=
  [.invoke (.findIdentityByUserId p.userId), .advance 0, .advance 0, .invoke (.review p),
    .advance 1, .invoke (.findIdentityByUserId p.userId), .advance 2, .advance 2, .advance 2,
    .advance 2, .invoke (.spoil (driverIdentityCacheKey p.userId) "[object Object]"), .advance 3,
    .invoke (.findIdentityByUserId p.userId), .advance 4, .advance 4, .advance 0, .advance 0]

def verifiedDriver : DriverProfile :=
  { id := "profile", userId := "driver", driverApplicationId := "application" }

theorem lookup_agrees_lateNull :
    let p := (cachePool .empty).run (cacheSystem identityJson) (lateNull verifiedDriver)
    let p' := p.run (cacheSystem identityJson)
      (.invoke (.findIdentityByUserId "driver") :: List.replicate 4 (.advance 5))
    Answers p'.world 5 (some ⟨"profile", "driver"⟩) ∧
      AnswerAgrees p.world.shared p'.world 5 "driver" (some ⟨"profile", "driver"⟩) := by
  have hanswers : Answers ((((cachePool .empty).run (cacheSystem identityJson)
      (lateNull verifiedDriver)).run (cacheSystem identityJson)
        (.invoke (.findIdentityByUserId "driver") :: List.replicate 4 (.advance 5))).world) 5
      (some ⟨"profile", "driver"⟩) := by decide +kernel
  exact ⟨hanswers, (lookup_agrees identityJson .empty (lateNull verifiedDriver)
    (List.replicate 4 (.advance 5)) "driver").1 _ hanswers⟩

section Simulation
variable {json : Json DriverIdentity} {cfg : Config} {s s' : CacheBackend} {b : Backend}

/-- The ride services' backend knows every entry by what a lookup reads in it. -/
structure Abstracts (json : Json DriverIdentity) (s : CacheBackend) (b : Backend) : Prop where
  profiles : b.tables.driverProfiles = s.driverProfiles
  identities : ∀ userId, b.driverIdentities userId = s.cached json userId

theorem Abstracts.findIdentity (h : Abstracts json s b) (userId : Id) :
    ((b.tables.findDriverProfileByUser userId).map fun p => ⟨p.id, p.userId⟩) =
      s.findIdentity userId := by
  unfold RideTables.findDriverProfileByUser CacheBackend.findIdentity
  rw [h.profiles]

theorem Abstracts.update (h : Abstracts json s b) (userId : Id) (raw : Option String) :
    Abstracts json
      { s with redis := Function.update s.redis (driverIdentityCacheKey userId) raw }
      { b with driverIdentities :=
          Function.update b.driverIdentities userId (json.read raw) } where
  profiles := h.profiles
  identities userId' := by
    simp only [CacheBackend.cached]
    by_cases hu : userId' = userId
    · rw [hu, Function.update_self, Function.update_self]
    · have hkey : driverIdentityCacheKey userId' ≠ driverIdentityCacheKey userId :=
        fun hkey => hu (driverIdentityCacheKey_injective hkey)
      rw [Function.update_of_ne hu, Function.update_of_ne hkey]
      exact h.identities userId'

/-- The lookup of the ride services, which caches records, is this one, which caches texts. -/
theorem findIdentityByUserId_simulates (h : Abstracts json s b) (userId : Id) :
    Call.Simulates (cacheSystem json) (rideSystem cfg) (Abstracts json)
      (findIdentityByUserId json userId) s
      (Reedr.DriversService.findIdentityByUserId userId) b := by
  rw [findIdentityByUserId_eq]
  have hget : (rideSystem cfg).exec (.getIdentity userId) b = .ok (s.cached json userId, b) := by
    rw [← h.identities userId]
    rfl
  apply Call.Simulates.perform_bind
  case houtage => rfl
  case hout => rfl
  case h => exact h
  case hs => rfl
  case ht => exact hget
  unfold CacheBackend.cached
  cases json.read (s.redis (driverIdentityCacheKey userId)) with
  | some identity => exact .done h _
  | none =>
      have hfind : (rideSystem cfg).exec (.findIdentity userId) b =
          .ok (s.findIdentity userId, b) := by
        rw [← h.findIdentity userId]
        rfl
      apply Call.Simulates.perform_bind
      case houtage => rfl
      case hout => rfl
      case h => exact h
      case hs => rfl
      case ht => exact hfind
      have hset := h.update userId (some (json.stringify (s.findIdentity userId)))
      rw [json.read_stringify] at hset
      apply Call.Simulates.perform_bind
      case houtage => rfl
      case hout => rfl
      case h => exact h
      case hs => rfl
      case ht => rfl
      exact .done hset _

end Simulation

end Reedr.IdentityCache
