import Reedr.Library.Obligation
import Reedr.Onboarding.Effects
import Reedr.Onboarding.Services

/-!
# What a document row points to

Uploads of one type for one application replace each other's row in any order,
and each removes the file it found there first. A key that has been overwritten
never returns to a row, so no file is removed that a row still points to.
-/

namespace Reedr
open Relational Interleaving

/-- An upload for an application. -/
structure DocumentUpload where
  driverApplicationId : Id
  upload : Upload

namespace DocumentUpload
variable (i : DocumentUpload)

def storageKey : String := DriverDocumentsService.storageKey i.driverApplicationId i.upload

def slot : Id × DriverDocumentType := (i.driverApplicationId, i.upload.type)

/-- The columns it writes. -/
def document : StoredDocument where
  storageKey := i.storageKey
  originalFilename := i.upload.file.originalname
  mimeType := i.upload.file.mimetype
  sizeBytes := i.upload.file.size

/-- Its statements before the removal of the file it found. -/
def finds : OnboardingStmt := .findDocument i.driverApplicationId i.upload.type

def saves : OnboardingStmt := .saveFile i.storageKey i.upload.file.buffer

def upserts : OnboardingStmt :=
  .upsertDocument i.driverApplicationId i.upload.type i.document i.upload.rowUuid

/-- The row it finds in a state. -/
def previous (s : Registry) : Option DriverDocument :=
  s.driverDocuments.find? fun d =>
    d.driverApplicationId = i.driverApplicationId ∧ d.type = i.upload.type

end DocumentUpload

/-- Uploads over a database and a storage that may be out of reach. -/
def uploadSystem (cfg : Config) :
    System onboardingSignature ServiceError Registry DocumentUpload where
  code i := (DriverDocumentsService.upload i.driverApplicationId i.upload).void
  exec := Registry.exec cfg
  external := OnboardingStmt.external
  outage := .outage

abbrev UploadWorld := World onboardingSignature Registry DocumentUpload
abbrev UploadMove := Move DocumentUpload

/-- Every document row and the file it points to were written by one and the same
upload. -/
def DocumentsStored (w : UploadWorld) : Prop :=
  ∀ d ∈ w.shared.driverDocuments, ∃ c ∈ w.trace, d.slot = c.inv.slot ∧
    d.stored = c.inv.document ∧ w.shared.files d.storageKey = some c.inv.upload.file.buffer

/-- No two uploads generate the same storage key. -/
def FreshKeys (ms : List UploadMove) : Prop :=
  ((ms.filterMap Move.invoked?).map DocumentUpload.storageKey).Nodup

instance (ms : List UploadMove) : Decidable (FreshKeys ms) :=
  inferInstanceAs (Decidable (List.Nodup _))

/-- What an upload remembers when it issues a statement. -/
private def UploadFact (i : DocumentUpload) (l : List (OnboardingStmt × Registry)) :
    OnboardingStmt → Prop
  | .findDocument driverApplicationId type =>
      OnboardingStmt.findDocument driverApplicationId type = i.finds ∧ l = []
  | .saveFile key buffer => OnboardingStmt.saveFile key buffer = i.saves ∧
      ∃ s, l = [(i.finds, s)]
  | .upsertDocument driverApplicationId type document uuid =>
      OnboardingStmt.upsertDocument driverApplicationId type document uuid = i.upserts ∧
        ∃ s s', l = [(i.finds, s), (i.saves, s')]
  | .deleteFile key => ∃ s s' s'' previous,
      l = [(i.finds, s), (i.saves, s'), (i.upserts, s'')] ∧ i.previous s = some previous ∧
        key = previous.storageKey
  | _ => False

section Calls
variable {cfg : Config}

private theorem upload_recalls (i : DocumentUpload) :
    ((uploadSystem cfg).code i).Recalls (uploadSystem cfg) (fun _ => True) (UploadFact i)
      (fun _ _ => True) [] := by
  refine Call.Recalls.andThen (Q := fun _ => True) ?_ fun _ _ _ => trivial
  apply Call.Recalls.ensure_bind
  · intro _
    apply Call.Recalls.perform_bind ⟨rfl, rfl⟩
    · rintro s existing _ - hfind
      have hprevious : existing = i.previous s := congrArg Prod.fst (Except.ok.inj hfind).symm
      apply Call.Recalls.perform_bind ⟨rfl, s, rfl⟩
      · rintro s₁ _ _ - -
        apply Call.Recalls.perform_bind ⟨rfl, s, s₁, rfl⟩
        · rintro s₂ document _ - -
          cases existing with
          | none => trivial
          | some previous =>
              dsimp only
              split
              · refine Call.Recalls.andThen (Q := fun _ => True) ?_ fun _ _ _ => trivial
                refine Call.Recalls.orElse (Q := fun _ => True) ?_ fun _ _ _ => trivial
                exact ⟨⟨s, s₁, s₂, previous, rfl, hprevious.symm, rfl⟩,
                  fun _ _ _ _ _ => trivial, fun _ _ => trivial⟩
              · trivial
        · exact fun _ _ => trivial
      · exact fun _ _ => trivial
    · exact fun _ _ => trivial
  · exact fun _ => trivial

end Calls

/-- The key has been written to a row. -/
private def Upserted (w : UploadWorld) (key : String) : Prop :=
  ∃ c ∈ w.trace, c.op = c.inv.upserts ∧ c.inv.storageKey = key

/-- The row was written by an upload that had saved its file. -/
private def Known (w : UploadWorld) (d : DriverDocument) : Prop :=
  (∃ c ∈ w.trace, c.op = c.inv.saves ∧ d.slot = c.inv.slot ∧ d.stored = c.inv.document) ∧
    Upserted w d.storageKey

/-- A saved file stays until its key has left the rows, and a call that has written
its row may remove what it found there. -/
private structure Stored (w : UploadWorld) : Prop where
  rows : ∀ d ∈ w.shared.driverDocuments, Known w d
  files : ∀ c ∈ w.trace, c.op = c.inv.saves →
    (Upserted w c.inv.storageKey →
      ∃ d ∈ w.shared.driverDocuments, d.storageKey = c.inv.storageKey) →
    w.shared.files c.inv.storageKey = some c.inv.upload.file.buffer
  found : ∀ c ∈ w.trace, c.op = c.inv.finds → ∀ p, c.inv.previous c.before = some p → Known w p
  retired : ∀ c ∈ w.trace, c.op = c.inv.finds → ∀ p, c.inv.previous c.before = some p →
    (∃ e ∈ w.trace, e.call = c.call ∧ e.op = e.inv.upserts) →
      ∀ d ∈ w.shared.driverDocuments, d.storageKey ≠ p.storageKey

section Commit
variable {cfg : Config} {w : UploadWorld} {n : Nat} {i : DocumentUpload} {o : OnboardingStmt}
  {s : Registry}

private theorem mem_commit {c : Commit onboardingSignature Registry DocumentUpload} :
    c ∈ (w.commit n i o s).trace ↔ c ∈ w.trace ∨ c = ⟨n, i, o, w.shared⟩ := by
  rw [World.commit_trace, List.mem_append, List.mem_singleton]

private theorem Known.commit {d : DriverDocument} (h : Known w d) :
    Known (w.commit n i o s) d := by
  obtain ⟨⟨c, hc, hrest⟩, ⟨e, he, hupserts⟩⟩ := h
  exact ⟨⟨c, mem_commit.mpr (Or.inl hc), hrest⟩, ⟨e, mem_commit.mpr (Or.inl he), hupserts⟩⟩

private theorem Upserted.commit {key : String} (h : Upserted w key) :
    Upserted (w.commit n i o s) key := by
  obtain ⟨c, hc, hrest⟩ := h
  exact ⟨c, mem_commit.mpr (Or.inl hc), hrest⟩

private theorem Known.storageKey {d : DriverDocument} (h : Known w d) :
    ∃ c ∈ w.trace, d.slot = c.inv.slot ∧ d.storageKey = c.inv.storageKey := by
  obtain ⟨⟨c, hc, -, hslot, hstored⟩, -⟩ := h
  exact ⟨c, hc, hslot, congrArg StoredDocument.storageKey hstored⟩

/-- The row found is in the slot. -/
private theorem previous_some {d : DriverDocument} (h : i.previous s = some d) :
    d ∈ s.driverDocuments ∧ d.slot = i.slot := by
  obtain ⟨hd, hslot⟩ := Table.find?_some h
  simp only [decide_eq_true_eq] at hslot
  exact ⟨hd, Prod.ext hslot.1 hslot.2⟩

private theorem Stored.find (h : Stored w) (hs : s = w.shared) (hnew : memory n w.trace = []) :
    Stored (w.commit n i i.finds s) := by
  subst hs
  have hupserts : i.finds ≠ i.upserts := nofun
  constructor
  · exact fun d hd => (h.rows d hd).commit
  · intro c hc hop hlive
    rcases mem_commit.mp hc with hc | rfl
    · exact h.files c hc hop fun hu => hlive hu.commit
    · cases hop
  · intro c hc hop p hp
    rcases mem_commit.mp hc with hc | rfl
    · exact (h.found c hc hop p hp).commit
    · exact (h.rows p (previous_some hp).1).commit
  · rintro c hc hop p hp ⟨e, he, hcall, hupsert⟩
    have he : e ∈ w.trace := by
      rcases mem_commit.mp he with he | rfl
      · exact he
      · exact absurd hupsert hupserts
    rcases mem_commit.mp hc with hc | rfl
    · exact h.retired c hc hop p hp ⟨e, he, hcall, hupsert⟩
    · have hmem : (e.op, e.before) ∈ memory n w.trace := mem_memory.mpr ⟨e, he, hcall, rfl⟩
      rw [hnew] at hmem
      cases hmem

/-- The key of a call that has not yet written its row is in nobody's hands. -/
private theorem not_upserted (htold : ToldApart DocumentUpload.storageKey (w.commit n i o s).trace)
    (hnew : ∀ x ∈ memory n w.trace, x.1 ≠ i.upserts) : ¬ Upserted w i.storageKey := by
  rintro ⟨c, hc, hop, hkey⟩
  have hapart := htold c (mem_commit.mpr (Or.inl hc)) _ (mem_commit.mpr (Or.inr rfl))
  have hcall : c.call = n := hapart.1 hkey
  have hinv : c.inv = i := hapart.2 hcall
  exact hnew (c.op, c.before) (mem_memory.mpr ⟨c, hc, hcall, rfl⟩) (hinv ▸ hop)

private theorem Stored.save (h : Stored w)
    (htold : ToldApart DocumentUpload.storageKey (w.commit n i i.saves s).trace)
    (hs : s = { w.shared with
      files := Function.update w.shared.files i.storageKey (some i.upload.file.buffer) })
    (hmemory : ∃ s₀, memory n w.trace = [(i.finds, s₀)]) : Stored (w.commit n i i.saves s) := by
  obtain ⟨s₀, hmemory⟩ := hmemory
  have hupserts : i.saves ≠ i.upserts := nofun
  have hdocuments : s.driverDocuments = w.shared.driverDocuments := by rw [hs]
  have hfiles : s.files = Function.update w.shared.files i.storageKey
      (some i.upload.file.buffer) := by rw [hs]
  constructor
  · intro d hd
    rw [World.commit_shared, hdocuments] at hd
    exact (h.rows d hd).commit
  · intro c hc hop hlive
    rw [World.commit_shared, hfiles]
    rcases mem_commit.mp hc with hc | rfl
    · have hkey : c.inv.storageKey ≠ i.storageKey := by
        intro hkey
        have hapart := htold c (mem_commit.mpr (Or.inl hc)) _ (mem_commit.mpr (Or.inr rfl))
        have hmem : (c.op, c.before) ∈ memory n w.trace :=
          mem_memory.mpr ⟨c, hc, hapart.1 hkey, rfl⟩
        rw [hmemory, List.mem_singleton, Prod.mk.injEq, hop] at hmem
        exact nomatch hmem.1
      rw [Function.update_of_ne hkey]
      apply h.files c hc hop
      intro hu
      obtain ⟨d, hd, hdk⟩ := hlive hu.commit
      rw [World.commit_shared, hdocuments] at hd
      exact ⟨d, hd, hdk⟩
    · exact Function.update_self ..
  · intro c hc hop p hp
    rcases mem_commit.mp hc with hc | rfl
    · exact (h.found c hc hop p hp).commit
    · cases hop
  · rintro c hc hop p hp ⟨e, he, hcall, hupsert⟩
    rw [World.commit_shared, hdocuments]
    rcases mem_commit.mp hc with hc | rfl
    · rcases mem_commit.mp he with he | rfl
      · exact h.retired c hc hop p hp ⟨e, he, hcall, hupsert⟩
      · exact absurd hupsert hupserts
    · cases hop

private theorem Stored.upsert (h : Stored w)
    (htold : ToldApart DocumentUpload.storageKey (w.commit n i i.upserts s).trace)
    (hfiles : s.files = w.shared.files)
    (hothers : w.shared.driverDocuments.SameBut (fun x => x.slot = i.slot) s.driverDocuments)
    (hwritten : ∀ x ∈ s.driverDocuments, x.slot = i.slot → x.stored = i.document)
    (hmemory : ∃ s₀ s₁, memory n w.trace = [(i.finds, s₀), (i.saves, s₁)]) :
    Stored (w.commit n i i.upserts s) := by
  obtain ⟨s₀, s₁, hmemory⟩ := hmemory
  have hfresh : ¬ Upserted w i.storageKey := by
    apply not_upserted htold
    rw [hmemory]
    simp [DocumentUpload.finds, DocumentUpload.saves, DocumentUpload.upserts]
  -- What this call has saved, it has saved under its own key.
  obtain ⟨f, hf, hfcall, hfop⟩ : ∃ c ∈ w.trace, c.call = n ∧ (c.op, c.before) = (i.saves, s₁) := by
    apply mem_memory.mp
    simp [hmemory]
  have hfinv : f.inv = i :=
    (htold f (mem_commit.mpr (Or.inl hf)) _ (mem_commit.mpr (Or.inr rfl))).2 hfcall
  have hkept {d : DriverDocument} (hd : d ∈ s.driverDocuments) (hslot : d.slot ≠ i.slot) :
      d ∈ w.shared.driverDocuments :=
    (hothers d hslot).mp hd
  have hown {d : DriverDocument} (hd : d ∈ s.driverDocuments) (hslot : d.slot = i.slot) :
      d.storageKey = i.storageKey :=
    congrArg StoredDocument.storageKey (hwritten d hd hslot)
  constructor
  · intro d hd
    by_cases hslot : d.slot = i.slot
    · refine ⟨⟨f, mem_commit.mpr (Or.inl hf), ?_, ?_, ?_⟩, _, mem_commit.mpr (Or.inr rfl), rfl, ?_⟩
      · rw [hfinv]
        exact congrArg Prod.fst hfop
      · rw [hfinv, hslot]
      · rw [hfinv]
        exact hwritten d hd hslot
      · exact (hown hd hslot).symm
    · exact (h.rows d (hkept hd hslot)).commit
  · intro c hc hop hlive
    rw [World.commit_shared, hfiles]
    rcases mem_commit.mp hc with hc | rfl
    · apply h.files c hc hop
      intro hu
      obtain ⟨d, hd, hdk⟩ := hlive hu.commit
      refine ⟨d, hkept hd fun hslot => hfresh ?_, hdk⟩
      rwa [← hown hd hslot, hdk]
    · cases hop
  · intro c hc hop p hp
    rcases mem_commit.mp hc with hc | rfl
    · exact (h.found c hc hop p hp).commit
    · cases hop
  · rintro c hc hop p hp ⟨e, he, hcall, hupsert⟩ d hd
    rcases mem_commit.mp hc with hc | rfl
    · have hp' := h.found c hc hop p hp
      by_cases hslot : d.slot = i.slot
      · rw [hown hd hslot]
        exact fun hkey => hfresh (hkey ▸ hp'.2)
      · rcases mem_commit.mp he with he | rfl
        · exact h.retired c hc hop p hp ⟨e, he, hcall, hupsert⟩ d (hkept hd hslot)
        · -- The row found in this slot cannot share its key with a row of another.
          intro hkey
          obtain ⟨c₁, hc₁, hslot₁, hkey₁⟩ := (h.rows d (hkept hd hslot)).storageKey
          obtain ⟨c₂, hc₂, hslot₂, hkey₂⟩ := hp'.storageKey
          have hapart := htold c₁ (mem_commit.mpr (Or.inl hc₁)) c₂ (mem_commit.mpr (Or.inl hc₂))
          have hinv : c₁.inv = c₂.inv := hapart.2 (hapart.1 (by rw [← hkey₁, hkey, hkey₂]))
          have hcinv : i = c.inv :=
            (htold _ (mem_commit.mpr (Or.inr rfl)) c (mem_commit.mpr (Or.inl hc))).2 hcall
          apply hslot
          rw [hslot₁, hinv, ← hslot₂, (previous_some hp).2, hcinv]
    · cases hop

private theorem Stored.delete (h : Stored w) {key : String}
    (htold : ToldApart DocumentUpload.storageKey (w.commit n i (.deleteFile key) s).trace)
    (hs : s = { w.shared with files := Function.update w.shared.files key none })
    (hmemory : ∃ s₀ s₁ s₂ p, memory n w.trace = [(i.finds, s₀), (i.saves, s₁), (i.upserts, s₂)] ∧
      i.previous s₀ = some p ∧ key = p.storageKey) :
    Stored (w.commit n i (.deleteFile key) s) := by
  obtain ⟨s₀, s₁, s₂, p, hmemory, hp, rfl⟩ := hmemory
  have hdocuments : s.driverDocuments = w.shared.driverDocuments := by rw [hs]
  have hfiles : s.files = Function.update w.shared.files p.storageKey none := by rw [hs]
  have hupserts : OnboardingStmt.deleteFile p.storageKey ≠ i.upserts := nofun
  have mine {x : OnboardingStmt × Registry} (hx : x ∈ memory n w.trace) :
      ∃ c ∈ w.trace, c.call = n ∧ c.inv = i ∧ (c.op, c.before) = x := by
    obtain ⟨c, hc, hcall, hop⟩ := mem_memory.mp hx
    exact ⟨c, hc, hcall,
      (htold c (mem_commit.mpr (Or.inl hc)) _ (mem_commit.mpr (Or.inr rfl))).2 hcall, hop⟩
  obtain ⟨f, hf, hfcall, hfinv, hfop⟩ := mine (x := (i.finds, s₀)) (by simp [hmemory])
  obtain ⟨u, hu, hucall, huinv, huop⟩ := mine (x := (i.upserts, s₂)) (by simp [hmemory])
  have hbefore : f.before = s₀ := congrArg Prod.snd hfop
  have hfp : f.inv.previous f.before = some p := by
    rw [hfinv, hbefore]
    exact hp
  have hfinds : f.op = f.inv.finds := by
    rw [hfinv]
    exact congrArg Prod.fst hfop
  have hgone : ∀ d ∈ w.shared.driverDocuments, d.storageKey ≠ p.storageKey :=
    h.retired f hf hfinds p hfp
      ⟨u, hu, hucall.trans hfcall.symm, by rw [huinv]; exact congrArg Prod.fst huop⟩
  have hpUpserted : Upserted w p.storageKey := (h.found f hf hfinds p hfp).2
  constructor
  · intro d hd
    rw [World.commit_shared, hdocuments] at hd
    exact (h.rows d hd).commit
  · intro c hc hop hlive
    rw [World.commit_shared, hdocuments] at hlive
    rw [World.commit_shared, hfiles]
    rcases mem_commit.mp hc with hc | rfl
    · have hkey : c.inv.storageKey ≠ p.storageKey := by
        intro hkey
        have hu : Upserted (w.commit n i (.deleteFile p.storageKey) s) c.inv.storageKey := by
          rw [hkey]
          exact hpUpserted.commit
        obtain ⟨d, hd, hdk⟩ := hlive hu
        exact hgone d hd (hdk.trans hkey)
      rw [Function.update_of_ne hkey]
      exact h.files c hc hop fun hu => hlive hu.commit
    · cases hop
  · intro c hc hop q hq
    rcases mem_commit.mp hc with hc | rfl
    · exact (h.found c hc hop q hq).commit
    · cases hop
  · rintro c hc hop q hq ⟨e, he, hcall, hupsert⟩
    rw [World.commit_shared, hdocuments]
    rcases mem_commit.mp hc with hc | rfl
    · rcases mem_commit.mp he with he | rfl
      · exact h.retired c hc hop q hq ⟨e, he, hcall, hupsert⟩
      · exact absurd hupsert hupserts
    · cases hop

private theorem Stored.commit (h : Stored w) (hJ : UploadFact i (memory n w.trace) o)
    (htold : ToldApart DocumentUpload.storageKey (w.commit n i o s).trace) {b : o.Res}
    (hx : Registry.exec cfg o w.shared = .ok (b, s)) : Stored (w.commit n i o s) := by
  cases o with
  | findDocument driverApplicationId type =>
      obtain ⟨hop, hmemory⟩ := hJ
      rw [hop]
      exact h.find (congrArg Prod.snd (Except.ok.inj hx)).symm hmemory
  | saveFile key buffer =>
      obtain ⟨hop, hmemory⟩ := hJ
      have hs := (congrArg Prod.snd (Except.ok.inj hx)).symm
      rw [hop] at htold ⊢
      cases hop
      exact h.save htold hs hmemory
  | upsertDocument driverApplicationId type document uuid =>
      obtain ⟨hop, hmemory⟩ := hJ
      rw [hop] at htold ⊢
      cases hop
      obtain ⟨hs, hothers, hwritten⟩ := Registry.upsertDocument_effect (Registry.thrown_ok hx)
      have hfiles : s.files = w.shared.files := by rw [hs]
      exact h.upsert htold hfiles hothers hwritten hmemory
  | deleteFile key => exact h.delete htold (congrArg Prod.snd (Except.ok.inj hx)).symm hJ
  | _ => exact hJ.elim

end Commit

/-- However uploads overlap, and wherever one of them fails or stops, every document
row points to a file that is there, and both were written by the same upload. -/
theorem documents_stored (cfg : Config) (s : Registry) (ms : List UploadMove)
    (hfresh : FreshKeys ms) :
    DocumentsStored ((Pool.init { s with driverDocuments := .empty }).run
      (uploadSystem cfg) ms).world := by
  let K : UploadWorld → Prop := fun w =>
    ToldApart DocumentUpload.storageKey w.trace → Stored w
  have H : MemoryInvariant (uploadSystem cfg) (fun _ => True) fun i l c =>
      c.Recalls (uploadSystem cfg) (fun _ => True) (UploadFact i) (fun _ _ => True) l :=
    .of_recalls (fun _ _ => trivial) upload_recalls
  have hstart : (Pool.init { s with driverDocuments := .empty } :
      Pool onboardingSignature ServiceError Registry DocumentUpload).world.Always K := by
    apply World.always_init
    intro _
    constructor
    · exact fun d hd => absurd hd (Table.not_mem_empty d)
    · exact fun c hc => absurd hc List.not_mem_nil
    · exact fun c hc => absurd hc List.not_mem_nil
    · exact fun c hc => absurd hc List.not_mem_nil
  have hall := H.always_run (Q := fun _ _ _ => True)
    (fun hw hT _ hx htold => (hw.now (htold.mono fun c hc => mem_commit.mpr (Or.inl hc))).commit
      hT.1 htold hx)
    (MemoryInvariant.holds_init trivial) hstart ms
    (Along.of_invariant (G := fun _ => True) (fun _ _ _ => trivial)
      (fun _ _ _ _ _ _ _ _ _ => trivial) trivial ms)
  have htold := toldApart_run (uploadSystem cfg) { s with driverDocuments := .empty } hfresh
  have hstored := hall.now htold
  intro d hd
  obtain ⟨⟨c, hc, hop, hslot, hdocument⟩, -⟩ := hstored.rows d hd
  have hkey : d.storageKey = c.inv.storageKey := congrArg StoredDocument.storageKey hdocument
  refine ⟨c, hc, hslot, hdocument, ?_⟩
  rw [hkey]
  exact hstored.files c hc hop fun _ => ⟨d, hd, hkey⟩

/-- A photo of a vehicle. -/
def photo (name : String) (uuid : Id) : DocumentUpload where
  driverApplicationId := "application"
  upload :=
    { type := .vehiclePhoto
      file := { buffer := name, mimetype := "image/png", originalname := name, size := 4 }
      keyUuid := uuid
      rowUuid := uuid }

/-- Two photos are uploaded at once, both to replace a third one, and the call that
writes the row first removes the file of the third last. -/
def overlappingPhotos : List UploadMove :=
  [.invoke (photo "old.png" "0"), .advance 0, .advance 0, .advance 0,
    .invoke (photo "left.png" "1"), .invoke (photo "right.png" "2"), .advance 1, .advance 2,
    .advance 1, .advance 1, .advance 2, .advance 2, .advance 2, .advance 1]

theorem documents_stored_overlappingPhotos :
    FreshKeys overlappingPhotos ∧
      DocumentsStored ((Pool.init
        { (onboardingPool ⟨.empty, fun u hu => absurd hu (Table.not_mem_empty u)⟩).world.shared with
          driverDocuments := .empty }).run (uploadSystem .default) overlappingPhotos).world := by
  have hfresh : FreshKeys overlappingPhotos := by decide +kernel
  exact ⟨hfresh, documents_stored .default _ overlappingPhotos hfresh⟩

end Reedr
