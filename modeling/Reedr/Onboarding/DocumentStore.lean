import Reedr.Library.Serial
import Reedr.Onboarding.Progress
import Reedr.Onboarding.StoredDocuments

/-!
# The documents a client gets back

To its clients the document service is a map from an application and a type to a
file. Served one upload at a time, however many of its statements are refused,
it is exactly that: what is listed and downloaded is what the last upload that
returned had sent. A refused statement costs at most one file that nobody needs.

## Implementation notes

A download reads the row and then the file; between whole calls the two reads
see the same state, so they are one function of it.
-/

namespace Reedr
open Relational Interleaving

/-- What a listing shows of a document; the storage key is not for clients. -/
structure DriverDocumentResponseDto where
  id : Id
  type : DriverDocumentType
  originalFilename : String
  mimeType : String
  sizeBytes : Nat
  deriving DecidableEq, Repr

def DriverDocumentResponseDto.ofEntity (d : DriverDocument) : DriverDocumentResponseDto where
  id := d.id
  type := d.type
  originalFilename := d.originalFilename
  mimeType := d.mimeType
  sizeBytes := d.sizeBytes

/-- What a download answers with. -/
structure FileBuffer where
  buffer : String
  mimeType : String
  filename : String
  deriving DecidableEq, Repr

namespace DriverDocumentsService
variable (s : Registry)

def listForApplication (driverApplicationId : Id) : List DriverDocumentResponseDto :=
  (s.driverDocuments.findMany fun d => d.driverApplicationId = driverApplicationId).map
    .ofEntity

def getFileBuffer (documentId : Id) : Except ServiceError FileBuffer :=
  match s.driverDocuments.find? fun d => d.id = documentId with
  | none => .error (.notFound "Document not found")
  | some document =>
      match s.files document.storageKey with
      | some buffer => .ok ⟨buffer, document.mimeType, document.originalFilename⟩
      -- The storage cannot read what is not there.
      | none => .error .outage

end DriverDocumentsService

/-- The files a client gets that lists the documents of an application and downloads
those of one type. -/
def Registry.downloads (s : Registry) (slot : Id × DriverDocumentType) :
    List (Except ServiceError UploadableFile) :=
  ((DriverDocumentsService.listForApplication s slot.1).filter fun d => d.type = slot.2).map
    fun d => do
      let file ← DriverDocumentsService.getFileBuffer s d.id
      return ⟨file.buffer, file.mimeType, file.filename, d.sizeBytes⟩

abbrev UploadPool := Pool onboardingSignature ServiceError Registry DocumentUpload

/-- Whole uploads one after another, from no document and no file. -/
def uploadsInTurn (cfg : Config) (s : Registry) (calls : List (DocumentUpload × List Bool)) :
    UploadPool :=
  (Pool.init { s with driverDocuments := .empty, files := fun _ => none }).serveAll
    (uploadSystem cfg) calls

/-- The last upload to a slot that has returned. -/
def UploadPool.accepted (p : UploadPool) (slot : Id × DriverDocumentType) :
    Option DocumentUpload :=
  ((p.running.filter fun c => c.1.slot = slot ∧ c.2.returned).getLast?).map Prod.fst

/-- What an upload that ran alone has made of a registry; `refused` says that one of
its statements was refused. -/
inductive Uploads (i : DocumentUpload) (refused : Prop) (s s' : Registry) :
    Except ServiceError Unit → Prop where
  | rejected {e} (hdocuments : s'.driverDocuments = s.driverDocuments)
      (hfiles : s'.files = s.files) : Uploads i refused s s' (.error e)
  | abandoned {e} (hrefused : refused) (hdocuments : s'.driverDocuments = s.driverDocuments)
      (hfiles : s'.files =
        Function.update s.files i.storageKey (some i.upload.file.buffer)) :
      Uploads i refused s s' (.error e)
  | stored
      (hothers : s.driverDocuments.SameBut (fun x => x.slot = i.slot) s'.driverDocuments)
      (hwritten : ∀ x ∈ s'.driverDocuments, x.slot = i.slot → x.stored = i.document)
      (hrow : ∃ x ∈ s'.driverDocuments, x.slot = i.slot)
      (hids : ∀ x ∈ s'.driverDocuments, x.id = i.upload.rowUuid ∨
        ∃ y ∈ s.driverDocuments, y.id = x.id)
      (hfiles : (s'.files = Function.update s.files i.storageKey (some i.upload.file.buffer) ∧
          (refused ∨ i.previous s = none)) ∨
        ∃ p, i.previous s = some p ∧ s'.files = Function.update
          (Function.update s.files i.storageKey (some i.upload.file.buffer)) p.storageKey none) :
      Uploads i refused s s' (.ok ())

section Calls
variable {cfg : Config} {i : DocumentUpload} {n : Nat} {w : UploadWorld}

private theorem mem_of_headD {refusals : List Bool} (h : refusals.headD false = true) :
    true ∈ refusals := by
  cases refusals with
  | nil => cases h
  | cons refused rest => exact h ▸ List.mem_cons_self

/-- The row of the slot and its file, once they are written. -/
private theorem uploads_stored {refused : Prop} {d : DriverDocument} {s s' : Registry}
    (hx : Registry.exec cfg i.upserts { w.shared with
      files := Function.update w.shared.files i.storageKey (some i.upload.file.buffer) } =
        .ok (d, s))
    (hdocuments : s'.driverDocuments = s.driverDocuments)
    (hfiles : (s'.files = s.files ∧ (refused ∨ i.previous w.shared = none)) ∨
      ∃ p, i.previous w.shared = some p ∧
        s'.files = Function.update s.files p.storageKey none) :
    Uploads i refused w.shared s' (.ok ()) := by
  obtain ⟨hs, hothers, hwritten⟩ := Registry.upsertDocument_effect (Registry.thrown_ok hx)
  obtain ⟨hrow, hids⟩ := Registry.upsertDocument_row (Registry.thrown_ok hx)
  have hsaved : s.files =
      Function.update w.shared.files i.storageKey (some i.upload.file.buffer) := by rw [hs]
  rw [hsaved] at hfiles
  rw [← hdocuments] at hothers hwritten hrow hids
  exact .stored hothers hwritten hrow hids hfiles

/-- An upload that runs alone stores its document, or leaves no row changed. -/
theorem upload_uploads (hrow : ∀ d ∈ w.shared.driverDocuments, d.id ≠ i.upload.rowUuid)
    (hkey : ∀ d ∈ w.shared.driverDocuments, d.storageKey ≠ i.storageKey)
    (refusals : List Bool) :
    Uploads i (true ∈ refusals) w.shared
      (((uploadSystem cfg).code i).eval (uploadSystem cfg) n i refusals w).2.shared
      (((uploadSystem cfg).code i).eval (uploadSystem cfg) n i refusals w).1 := by
  let P : Except ServiceError Unit × UploadWorld → Prop := fun r =>
    Uploads i (true ∈ refusals) w.shared r.2.shared r.1
  show P ((DriverDocumentsService.upload i.driverApplicationId i.upload).void.eval
    (uploadSystem cfg) n i refusals w)
  simp only [DriverDocumentsService.upload, Call.void_eq, bind_assoc]
  refine Call.eval_ensure_bind (fun _ => ?_) fun _ => .rejected rfl rfl
  -- Up to the upsert a refusal leaves every row as it is.
  refine Call.eval_perform_bind (P := P) rfl (fun _ => .rejected rfl rfl) ?_
    fun _ _ => .rejected rfl rfl
  intro _ existing s hfind
  have hexisting : existing = i.previous w.shared :=
    congrArg Prod.fst (Except.ok.inj hfind).symm
  obtain rfl : w.shared = s := congrArg Prod.snd (Except.ok.inj hfind)
  refine Call.eval_perform_bind (P := P) rfl (fun _ => .rejected rfl rfl) ?_
    fun _ _ => .rejected rfl rfl
  intro _ _ s₁ hsave
  obtain rfl : { w.shared with
      files := Function.update w.shared.files i.storageKey (some i.upload.file.buffer) } = s₁ :=
    congrArg Prod.snd (Except.ok.inj hsave)
  refine Call.eval_perform_bind (P := P) rfl
    (fun hr => .abandoned (List.mem_of_mem_tail (List.mem_of_mem_tail (mem_of_headD hr))) rfl rfl)
    ?_ ?_
  · intro _ d s₂ hupsert
    have hupsert : Registry.exec cfg i.upserts { w.shared with
        files := Function.update w.shared.files i.storageKey (some i.upload.file.buffer) } =
          .ok (d, s₂) := hupsert
    cases hprevious : i.previous w.shared with
    | none =>
        rw [hexisting, hprevious]
        exact uploads_stored hupsert rfl (Or.inl ⟨rfl, Or.inr hprevious⟩)
    | some previous =>
        rw [hexisting, hprevious]
        have hne : previous.storageKey ≠
            DriverDocumentsService.storageKey i.driverApplicationId i.upload :=
          hkey previous (Table.find?_some hprevious).1
        dsimp only
        rw [if_pos hne, bind_assoc]
        refine Call.eval_handled_bind (P := P) (fun hr => ?_) (fun _ s₃ hdelete => ?_)
          fun e hdelete => by cases hdelete
        · refine uploads_stored hupsert rfl (Or.inl ⟨rfl, Or.inl ?_⟩)
          exact List.mem_of_mem_tail (List.mem_of_mem_tail (List.mem_of_mem_tail
            (mem_of_headD hr)))
        · cases hdelete
          exact uploads_stored hupsert rfl (Or.inr ⟨previous, hprevious, rfl⟩)
  · intro e herr
    obtain ⟨d, s₂, hx, -⟩ : ∃ d s₂, Registry.exec cfg i.upserts { w.shared with
        files := Function.update w.shared.files i.storageKey (some i.upload.file.buffer) } =
          .ok (d, s₂) ∧ _ :=
      Registry.upsertDocument_isOk cfg hrow
    cases herr.symm.trans hx

end Calls

/-- The uploads that stand after one more. -/
def DocumentUpload.after (i : DocumentUpload)
    (last : Id × DriverDocumentType → Option DocumentUpload) :
    Except ServiceError Unit → Id × DriverDocumentType → Option DocumentUpload
  | .error _ => last
  | .ok _ => Function.update last i.slot (some i)

/-- A registry holds the last upload to every slot, and few other files. -/
private structure Holds (last : Id × DriverDocumentType → Option DocumentUpload)
    (leftovers : Nat) (s : Registry) : Prop where
  row : ∀ d ∈ s.driverDocuments, ∃ i, last d.slot = some i ∧ d.stored = i.document ∧
    s.files d.storageKey = some i.upload.file.buffer
  found : ∀ slot i, last slot = some i → ∃ d ∈ s.driverDocuments, d.slot = slot
  apart : ∀ d ∈ s.driverDocuments, ∀ e ∈ s.driverDocuments,
    d.storageKey = e.storageKey → d = e
  kept : ∃ l : List String, l.length ≤ leftovers ∧ ∀ key, s.files key ≠ none →
    key ∈ l ∨ ∃ d ∈ s.driverDocuments, d.storageKey = key

section Uploads
variable {last : Id × DriverDocumentType → Option DocumentUpload} {k : Nat}
  {i : DocumentUpload} {refused : Prop} {s s' : Registry} {r : Except ServiceError Unit}

private theorem eq_of_slot {t : Table DriverDocument} {d e : DriverDocument} (hd : d ∈ t)
    (he : e ∈ t) (h : d.slot = e.slot) : d = e :=
  Table.eq_of_clash hd he (DriverDocument.clash_iff.mpr (Or.inr (Prod.mk.inj h)))

private theorem previous_eq_some {d : DriverDocument} :
    i.previous s = some d ↔ d ∈ s.driverDocuments ∧ d.slot = i.slot := by
  have hslot (x : DriverDocument) : decide (x.driverApplicationId = i.driverApplicationId ∧
      x.type = i.upload.type) = true ↔ x.slot = i.slot := by
    rw [decide_eq_true_eq, DriverDocument.slot, DocumentUpload.slot, Prod.mk.injEq]
  constructor
  · intro h
    obtain ⟨hd, hp⟩ := Table.find?_some h
    exact ⟨hd, (hslot d).mp hp⟩
  · rintro ⟨hd, hp⟩
    refine Table.find?_of_unique hd ((hslot d).mpr hp) fun x hx hxp => ?_
    exact eq_of_slot hx hd (((hslot x).mp hxp).trans hp.symm)

/-- A row is new, or it was there before. -/
theorem Uploads.keys (h : Uploads i refused s s' r) {d : DriverDocument}
    (hd : d ∈ s'.driverDocuments) :
    (d.storageKey = i.storageKey ∨ ∃ e ∈ s.driverDocuments, e.storageKey = d.storageKey) ∧
      (d.id = i.upload.rowUuid ∨ ∃ e ∈ s.driverDocuments, e.id = d.id) := by
  cases h with
  | rejected hdocuments hfiles =>
      rw [hdocuments] at hd
      exact ⟨Or.inr ⟨d, hd, rfl⟩, Or.inr ⟨d, hd, rfl⟩⟩
  | abandoned hrefused hdocuments hfiles =>
      rw [hdocuments] at hd
      exact ⟨Or.inr ⟨d, hd, rfl⟩, Or.inr ⟨d, hd, rfl⟩⟩
  | stored hothers hwritten hrow hids hfiles =>
      refine ⟨?_, hids d hd⟩
      by_cases hslot : d.slot = i.slot
      · exact Or.inl (congrArg StoredDocument.storageKey (hwritten d hd hslot))
      · exact Or.inr ⟨d, (hothers d hslot).mp hd, rfl⟩

section Stored
variable
  (hothers : s.driverDocuments.SameBut (fun x => x.slot = i.slot) s'.driverDocuments)
  (hwritten : ∀ x ∈ s'.driverDocuments, x.slot = i.slot → x.stored = i.document)
  (hrow : ∃ x ∈ s'.driverDocuments, x.slot = i.slot)
  (hkey : ∀ d ∈ s.driverDocuments, d.storageKey ≠ i.storageKey)
include hothers hwritten hrow

/-- A file that is there once an upload has saved its own and written its row is
left over, is the one it replaced, or is in use. -/
private theorem Holds.file_stored {l : List String}
    (hl : ∀ key, s.files key ≠ none → key ∈ l ∨ ∃ d ∈ s.driverDocuments, d.storageKey = key)
    {key : String} (hpresent :
      Function.update s.files i.storageKey (some i.upload.file.buffer) key ≠ none) :
    key ∈ l ∨ (∃ p, i.previous s = some p ∧ p.storageKey = key) ∨
      ∃ d ∈ s'.driverDocuments, d.storageKey = key := by
  by_cases heq : key = i.storageKey
  · obtain ⟨d, hd, hslot⟩ := hrow
    have hown := congrArg StoredDocument.storageKey (hwritten d hd hslot)
    exact Or.inr (Or.inr ⟨d, hd, hown.trans heq.symm⟩)
  · rw [Function.update_of_ne heq] at hpresent
    rcases hl key hpresent with hmem | ⟨d, hd, hdk⟩
    · exact Or.inl hmem
    · by_cases hslot : d.slot = i.slot
      · exact Or.inr (Or.inl ⟨d, previous_eq_some.mpr ⟨hd, hslot⟩, hdk⟩)
      · exact Or.inr (Or.inr ⟨d, (hothers d hslot).mpr hd, hdk⟩)

omit hrow in
include hkey in
/-- A key that was replaced is in no row. -/
private theorem Holds.ne_previous (h : Holds last k s) {p d : DriverDocument}
    (hp : i.previous s = some p) (hd : d ∈ s'.driverDocuments) :
    d.storageKey ≠ p.storageKey := by
  obtain ⟨hp, hpslot⟩ := previous_eq_some.mp hp
  by_cases hslot : d.slot = i.slot
  · have hown := congrArg StoredDocument.storageKey (hwritten d hd hslot)
    exact fun heq => hkey p hp (heq.symm.trans hown)
  · intro heq
    obtain rfl : d = p := h.apart d ((hothers d hslot).mp hd) p hp heq
    exact hslot hpslot

include hkey in
/-- An upload that returns stands from then on, and the others as before. -/
private theorem Holds.stored [Decidable refused] (h : Holds last k s)
    (hfiles : (s'.files = Function.update s.files i.storageKey (some i.upload.file.buffer) ∧
        (refused ∨ i.previous s = none)) ∨
      ∃ p, i.previous s = some p ∧ s'.files = Function.update
        (Function.update s.files i.storageKey (some i.upload.file.buffer)) p.storageKey none) :
    Holds (Function.update last i.slot (some i)) (k + if refused then 1 else 0) s' := by
  have hown {d : DriverDocument} (hd : d ∈ s'.driverDocuments) (hslot : d.slot = i.slot) :
      d.storageKey = i.storageKey :=
    congrArg StoredDocument.storageKey (hwritten d hd hslot)
  constructor
  · intro d hd
    have hread : s'.files d.storageKey =
        Function.update s.files i.storageKey (some i.upload.file.buffer) d.storageKey := by
      rcases hfiles with ⟨hfiles, -⟩ | ⟨p, hp, hfiles⟩
      · rw [hfiles]
      · rw [hfiles, Function.update_of_ne (h.ne_previous hothers hwritten hkey hp hd)]
    rw [hread]
    by_cases hslot : d.slot = i.slot
    · refine ⟨i, ?_, hwritten d hd hslot, ?_⟩
      · rw [hslot, Function.update_self]
      · rw [hown hd hslot, Function.update_self]
    · have hold := (hothers d hslot).mp hd
      rw [Function.update_of_ne hslot, Function.update_of_ne (hkey d hold)]
      exact h.row d hold
  · intro slot j hj
    by_cases hslot : slot = i.slot
    · exact hslot ▸ hrow
    · rw [Function.update_of_ne hslot] at hj
      obtain ⟨d, hd, rfl⟩ := h.found slot j hj
      exact ⟨d, (hothers d hslot).mpr hd, rfl⟩
  · intro d hd e he heq
    by_cases hdslot : d.slot = i.slot <;> by_cases heslot : e.slot = i.slot
    · exact eq_of_slot hd he (hdslot.trans heslot.symm)
    · exact absurd (heq.symm.trans (hown hd hdslot)) (hkey e ((hothers e heslot).mp he))
    · exact absurd (heq.trans (hown he heslot)) (hkey d ((hothers d hdslot).mp hd))
    · exact h.apart d ((hothers d hdslot).mp hd) e ((hothers e heslot).mp he) heq
  · obtain ⟨l, hlength, hl⟩ := h.kept
    rcases hfiles with ⟨hfiles, hwhy⟩ | ⟨p, hp, hfiles⟩
    · -- The file of a row that was replaced is still there.
      refine ⟨((i.previous s).map DriverDocument.storageKey).toList ++ l, ?_, ?_⟩
      · rw [List.length_append]
        rcases hwhy with hrefused | hnone
        · rw [if_pos hrefused]
          have := Option.length_toList_le (o := (i.previous s).map DriverDocument.storageKey)
          omega
        · rw [hnone]
          exact (Nat.zero_add _).le.trans (by omega)
      · intro key hpresent
        rw [hfiles] at hpresent
        rcases Holds.file_stored hothers hwritten hrow hl hpresent with hmem | ⟨p, hp, rfl⟩ | hd
        · exact Or.inl (List.mem_append_right _ hmem)
        · exact Or.inl (List.mem_append_left _ (by simp [hp]))
        · exact Or.inr hd
    · refine ⟨l, by omega, fun key hpresent => ?_⟩
      rw [hfiles] at hpresent
      have hne : key ≠ p.storageKey := fun heq => hpresent (heq ▸ Function.update_self ..)
      rw [Function.update_of_ne hne] at hpresent
      rcases Holds.file_stored hothers hwritten hrow hl hpresent with hmem | ⟨q, hq, rfl⟩ | hd
      · exact Or.inl hmem
      · obtain rfl := Option.some.inj (hp.symm.trans hq)
        exact absurd rfl hne
      · exact Or.inr hd

end Stored

/-- The uploads that stand stay in the registry, whatever becomes of one more. -/
private theorem Holds.uploads [Decidable refused] (h : Holds last k s)
    (hkey : ∀ d ∈ s.driverDocuments, d.storageKey ≠ i.storageKey)
    (hu : Uploads i refused s s' r) :
    Holds (i.after last r) (k + if refused then 1 else 0) s' := by
  obtain ⟨hrows, hfound, hapart, l, hlength, hl⟩ := h
  cases hu with
  | rejected hdocuments hfiles =>
      rw [← hdocuments] at hrows hfound hapart hl
      rw [← hfiles] at hrows hl
      exact ⟨hrows, hfound, hapart, l, by omega, hl⟩
  | abandoned hrefused hdocuments hfiles =>
      rw [← hdocuments] at hrows hfound hapart hl hkey
      refine ⟨fun d hd => ?_, hfound, hapart, i.storageKey :: l, ?_, fun key hpresent => ?_⟩
      · rw [hfiles, Function.update_of_ne (hkey d hd)]
        exact hrows d hd
      · rw [if_pos hrefused, List.length_cons]
        omega
      · rw [hfiles] at hpresent
        by_cases heq : key = i.storageKey
        · exact Or.inl (heq ▸ List.mem_cons_self)
        · rw [Function.update_of_ne heq] at hpresent
          exact (hl key hpresent).imp_left (List.mem_cons_of_mem _)
  | stored hothers hwritten hrow hids hfiles =>
      exact Holds.stored hothers hwritten hrow hkey
        ⟨hrows, hfound, hapart, l, hlength, hl⟩ hfiles

end Uploads

/-- The documents of a slot are the one that stands there. -/
private theorem Holds.downloads {last : Id × DriverDocumentType → Option DocumentUpload}
    {k : Nat} {s : Registry} (h : Holds last k s) (slot : Id × DriverDocumentType) :
    s.downloads slot = (last slot).toList.map fun i => .ok i.upload.file := by
  have hlisted : s.downloads slot = (s.driverDocuments.findMany fun d => d.slot = slot).map
      fun d => do
        let file ← DriverDocumentsService.getFileBuffer s d.id
        return ⟨file.buffer, file.mimeType, file.filename, d.sizeBytes⟩ := by
    unfold Registry.downloads DriverDocumentsService.listForApplication Table.findMany
    rw [List.filter_map, List.map_map, List.filter_filter]
    refine congrArg (List.map _) (List.filter_congr fun d _ => ?_)
    rw [Bool.eq_iff_iff, Bool.and_eq_true]
    calc _ ↔ d.type = slot.2 ∧ d.driverApplicationId = slot.1 :=
          and_congr decide_eq_true_iff decide_eq_true_iff
      _ ↔ d.slot = slot := and_comm.trans (Prod.ext_iff (x := d.slot)).symm
      _ ↔ _ := decide_eq_true_iff.symm
  rw [hlisted]
  cases hlast : last slot with
  | none =>
      have hnone : s.driverDocuments.findMany (fun d => d.slot = slot) = [] := by
        refine List.eq_nil_iff_forall_not_mem.mpr fun d hd => ?_
        obtain ⟨hd, hslot⟩ := Table.mem_findMany.mp hd
        obtain ⟨i, hi, -⟩ := h.row d hd
        rw [of_decide_eq_true hslot, hlast] at hi
        cases hi
      rw [hnone]
      rfl
  | some i =>
      obtain ⟨d, hd, hslot⟩ := h.found slot i hlast
      obtain ⟨j, hj, hstored, hfile⟩ := h.row d hd
      rw [hslot, hlast] at hj
      obtain rfl := Option.some.inj hj
      have hone : s.driverDocuments.findMany (fun d => d.slot = slot) = [d] := by
        refine Table.findMany_of_unique (DriverDocumentKey.id d.id) hd (by simp [Keyed.keys])
          (decide_eq_true hslot) fun x hx hxs => ?_
        exact eq_of_slot hx hd ((of_decide_eq_true hxs).trans hslot.symm)
      have hfind : s.driverDocuments.find? (fun x => x.id = d.id) = some d := by
        refine Table.find?_of_unique hd (decide_eq_true rfl) fun x hx hxid => ?_
        exact Table.eq_of_clash hx hd
          (DriverDocument.clash_iff.mpr (Or.inl (of_decide_eq_true hxid)))
      simp only [hone, List.map_cons, List.map_nil, Option.toList_some,
        DriverDocumentsService.getFileBuffer, hfind, hfile]
      have hbuffer : StoredDocument.mk d.storageKey d.originalFilename d.mimeType d.sizeBytes =
          i.document := hstored
      obtain ⟨-, hname, hmime, hsize⟩ := StoredDocument.mk.inj hbuffer
      show [Except.ok (UploadableFile.mk i.upload.file.buffer d.mimeType d.originalFilename
        d.sizeBytes)] = _
      rw [hname, hmime, hsize]

section Serial
variable (cfg : Config)

theorem UploadPool.accepted_serve (p : UploadPool) (q : DocumentUpload × List Bool) :
    UploadPool.accepted (p.serve (uploadSystem cfg) q) =
      q.1.after (UploadPool.accepted p) (p.reply (uploadSystem cfg) q) := by
  funext slot
  show (((p.running ++
    [(q.1, Call.ofExcept (p.reply (uploadSystem cfg) q))]).filter _).getLast?).map Prod.fst = _
  rw [List.filter_append]
  cases hr : p.reply (uploadSystem cfg) q with
  | ok u =>
      by_cases hslot : slot = q.1.slot
      · subst hslot
        simp [Call.ofExcept, Call.returned, DocumentUpload.after]
      · simp [Call.ofExcept, Call.returned, DocumentUpload.after, UploadPool.accepted, hslot,
          Ne.symm hslot]
  | error e =>
      simp [Call.ofExcept, Call.returned, DocumentUpload.after, UploadPool.accepted]

/-- However many uploads are served, and whatever is refused of them. -/
private theorem holds_serveAll {calls : List (DocumentUpload × List Bool)} {p : UploadPool}
    {k : Nat} (h : Holds (UploadPool.accepted p) k p.world.shared)
    (hfresh : ∀ d ∈ p.world.shared.driverDocuments, ∀ q ∈ calls,
      d.storageKey ≠ q.1.storageKey ∧ d.id ≠ q.1.upload.rowUuid)
    (hkeys : (calls.map fun q => q.1.storageKey).Nodup)
    (hrows : (calls.map fun q => q.1.upload.rowUuid).Nodup) :
    Holds (UploadPool.accepted (p.serveAll (uploadSystem cfg) calls))
      (k + calls.countP fun q => true ∈ q.2)
      (p.serveAll (uploadSystem cfg) calls).world.shared := by
  induction calls generalizing p k with
  | nil => exact h
  | cons q calls ih =>
      rw [List.map_cons, List.nodup_cons] at hkeys hrows
      have hu : Uploads q.1 (true ∈ q.2) p.world.shared
          (p.serve (uploadSystem cfg) q).world.shared (p.reply (uploadSystem cfg) q) :=
        upload_uploads (fun d hd => (hfresh d hd q List.mem_cons_self).2)
          (fun d hd => (hfresh d hd q List.mem_cons_self).1) q.2
      have hserved := h.uploads (fun d hd => (hfresh d hd q List.mem_cons_self).1) hu
      rw [← UploadPool.accepted_serve] at hserved
      have hall := ih hserved (fun d hd q' hq' => ?_) hkeys.2 hrows.2
      · rw [List.countP_cons, Nat.add_comm (calls.countP _), ← Nat.add_assoc]
        simp only [decide_eq_true_eq]
        exact hall
      · have hkeyne : q.1.storageKey ≠ q'.1.storageKey := fun h =>
          hkeys.1 (h ▸ List.mem_map_of_mem hq')
        have hrowne : q.1.upload.rowUuid ≠ q'.1.upload.rowUuid := fun h =>
          hrows.1 (h ▸ List.mem_map_of_mem hq')
        obtain ⟨hkey, hid⟩ := hu.keys hd
        constructor
        · rcases hkey with hkey | ⟨e, he, hek⟩
          · exact hkey ▸ hkeyne
          · exact hek ▸ (hfresh e he q' (List.mem_cons_of_mem q hq')).1
        · rcases hid with hid | ⟨e, he, hei⟩
          · exact hid ▸ hrowne
          · exact hei ▸ (hfresh e he q' (List.mem_cons_of_mem q hq')).2

/-- Whoever lists the documents of a type and downloads them gets back the file of
the last upload that returned, and of the other files there is at most one for each
upload of which a statement was refused. -/
theorem uploads_served (s : Registry) (calls : List (DocumentUpload × List Bool))
    (hkeys : (calls.map fun q => q.1.storageKey).Nodup)
    (hrows : (calls.map fun q => q.1.upload.rowUuid).Nodup) :
    let p := uploadsInTurn cfg s calls
    (∀ slot, p.world.shared.downloads slot =
      (UploadPool.accepted p slot).toList.map fun i => .ok i.upload.file) ∧
    ∃ leftovers : List String, leftovers.length ≤ calls.countP (fun q => true ∈ q.2) ∧
      ∀ key, p.world.shared.files key ≠ none →
        key ∈ leftovers ∨ ∃ d ∈ p.world.shared.driverDocuments, d.storageKey = key := by
  have hstart : Holds (UploadPool.accepted (Pool.init
      { s with driverDocuments := .empty, files := fun _ => none })) 0
      { s with driverDocuments := .empty, files := fun _ => none } := by
    constructor
    · exact fun d hd => absurd hd (Table.not_mem_empty d)
    · exact fun slot i hi => nomatch hi
    · exact fun d hd => absurd hd (Table.not_mem_empty d)
    · exact ⟨[], le_rfl, fun key hpresent => absurd rfl hpresent⟩
  have h := holds_serveAll cfg hstart
    (fun d hd => absurd hd (Table.not_mem_empty d)) hkeys hrows
  rw [Nat.zero_add] at h
  exact ⟨h.downloads, h.kept⟩

end Serial

/-- A photo of a vehicle is replaced, and its file cannot be removed; the next one
cannot be saved. -/
def refusedPhotos : List (DocumentUpload × List Bool) :=
  [(photo "old.png" "0", []), (photo "left.png" "1", [false, false, false, true]),
    (photo "right.png" "2", [false, true])]

theorem uploads_served_refusedPhotos :
    let s : Registry :=
      (onboardingPool ⟨.empty, fun u hu => absurd hu (Table.not_mem_empty u)⟩).world.shared
    let p := uploadsInTurn .default s refusedPhotos
    (∀ slot, p.world.shared.downloads slot =
      (UploadPool.accepted p slot).toList.map fun i => .ok i.upload.file) ∧
    ∃ leftovers : List String, leftovers.length ≤ 2 ∧ ∀ key, p.world.shared.files key ≠ none →
      key ∈ leftovers ∨ ∃ d ∈ p.world.shared.driverDocuments, d.storageKey = key :=
  uploads_served .default _ refusedPhotos (by decide +kernel) (by decide +kernel)

end Reedr
