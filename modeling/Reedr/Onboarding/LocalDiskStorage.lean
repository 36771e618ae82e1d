import Mathlib.Data.List.TakeWhile
import Reedr.Library.PosixPath
import Reedr.Onboarding.StoredDocuments

/-!
# Uploads on the local disk

`LocalDiskStorageService` keeps the files of the onboarding services under one
directory. A key is joined to it and resolved; the guard compares the result
with the directory as a string.

## Implementation notes

Keys are the strings of `DriverDocument.storageKey`, paths are lists of
characters. The disk maps a path to the bytes of the file there: `mkdir` makes
the directories a file needs and leaves every file alone.

The rows of the registry and its map from keys to files stand for the disk as
long as the keys are plain; the last section carries this through the uploads.
-/

namespace Reedr
open Relational Interleaving Posix

/-- What a storage call fails with. -/
inductive StorageError where
  | internalServerError (message : String)
  | noSuchFile
  deriving DecidableEq, Repr

/-- The bytes of every file. -/
abbrev Disk := Path → Option String

/-- The upload directory is what `resolve` made of the configured one. -/
structure LocalDiskStorageService where
  cwd : Path
  baseDir : Path
  normalized : Normalized baseDir

namespace LocalDiskStorageService

/-- The constructor, from `UPLOAD_DIR`. -/
def ofConfig (cwd : Path) (uploadDir : Option String) : LocalDiskStorageService where
  cwd
  baseDir := resolve cwd (uploadDir.getD "./uploads").toList
  normalized := resolve_normalized _ _

variable (s : LocalDiskStorageService)

def resolveKey (key : String) : Except StorageError Path :=
  let path := resolve s.cwd (join s.baseDir key.toList)
  if ¬ s.baseDir <+: path then .error (.internalServerError "Invalid storage key")
  else .ok path

def save (key buffer : String) (disk : Disk) : Except StorageError Disk := do
  let path ← s.resolveKey key
  return Function.update disk path (some buffer)

def read (key : String) (disk : Disk) : Except StorageError String := do
  let path ← s.resolveKey key
  match disk path with
  | some buffer => return buffer
  | none => .error .noSuchFile

/-- A file that is not there is deleted without an error. -/
def delete (key : String) (disk : Disk) : Except StorageError Disk := do
  let path ← s.resolveKey key
  return Function.update disk path none

/-- A call that writes one file fails as its key does. -/
private theorem write_eq_ok {key : String} {write : Path → Disk} {disk' : Disk} :
    (do return write (← s.resolveKey key)) = Except.ok disk' ↔
      ∃ path, s.resolveKey key = .ok path ∧ disk' = write path := by
  rw [Relational.bind_eq_ok]
  apply exists_congr
  intro path
  apply and_congr_right
  intro _
  constructor
  · rintro ⟨⟩
    rfl
  · rintro rfl
    rfl

theorem save_eq_ok {key buffer : String} {disk disk' : Disk} :
    s.save key buffer disk = .ok disk' ↔
      ∃ path, s.resolveKey key = .ok path ∧ disk' = Function.update disk path (some buffer) :=
  s.write_eq_ok

theorem delete_eq_ok {key : String} {disk disk' : Disk} :
    s.delete key disk = .ok disk' ↔
      ∃ path, s.resolveKey key = .ok path ∧ disk' = Function.update disk path none :=
  s.write_eq_ok

theorem read_eq_ok {key buffer : String} {disk : Disk} :
    s.read key disk = .ok buffer ↔
      ∃ path, s.resolveKey key = .ok path ∧ disk path = some buffer := by
  rw [read, Relational.bind_eq_ok]
  apply exists_congr
  intro path
  apply and_congr_right
  intro _
  cases h : disk path with
  | none => simp
  | some b =>
      constructor
      · rintro ⟨⟩
        rfl
      · rintro ⟨⟩
        rfl

/-- The names from the root down to the upload directory. -/
def names : List Segment := normalizeSegments true (segments s.baseDir)

theorem isName_of_mem_names {n : Segment} (h : n ∈ s.names) : IsName n :=
  isName_of_mem_normalizeSegments h

theorem baseDir_eq : s.baseDir = absolute s.names := by
  obtain ⟨names, hnames, hbase⟩ := s.normalized
  rw [LocalDiskStorageService.names, hbase, normalizeSegments_absolute hnames]

/-- The names from the root down to where the key leads. -/
def target (key : String) : List Segment :=
  s.names.take (s.names.length - climbs key.toList) ++ descends key.toList

theorem isName_of_mem_target {key : String} {n : Segment} (h : n ∈ s.target key) : IsName n := by
  rcases List.mem_append.mp h with h | h
  · exact s.isName_of_mem_names (List.mem_of_mem_take h)
  · exact isName_of_mem_descends h

/-- The guard is on the spelling of the path alone. -/
theorem resolveKey_eq_ok {key : String} {path : Path} :
    s.resolveKey key = .ok path ↔ path = absolute (s.target key) ∧ s.baseDir <+: path := by
  have htarget : resolve s.cwd (join s.baseDir key.toList) = absolute (s.target key) := by
    conv_lhs => rw [baseDir_eq]
    exact resolve_join (fun _ => s.isName_of_mem_names) _ _
  simp only [resolveKey, htarget]
  constructor
  · intro h
    split at h
    · cases h
    next hprefix =>
      cases h
      exact ⟨rfl, not_not.mp hprefix⟩
  · rintro ⟨rfl, hprefix⟩
    rw [if_neg (not_not.mpr hprefix)]

/-- The key climbs out of the upload directory and comes down again through the directories it
has left, up to one beside the upload directory whose name begins with its name. -/
def EntersSibling (key : String) : Prop :=
  0 < climbs key.toList ∧ ∃ last name rest, s.names.getLast? = some last ∧
    descends key.toList =
      (s.names.drop (s.names.length - climbs key.toList)).dropLast ++ name :: rest ∧
    last <+: name ∧ name ≠ last

/-- The keys that lead beside the upload directory, by where they lead. -/
private theorem entersSibling_iff {dirs : List Segment} {last : Segment}
    (hnames : s.names = dirs ++ [last]) (key : String) :
    s.EntersSibling key ↔
      ∃ name rest, s.target key = dirs ++ name :: rest ∧ last <+: name ∧ name ≠ last := by
  have hlast : s.names.getLast? = some last := by rw [hnames, List.getLast?_concat]
  unfold EntersSibling target
  rw [hlast]
  generalize climbs key.toList = n
  generalize descends key.toList = down
  rcases Nat.eq_zero_or_pos n with rfl | hn
  · -- Without a step up the key stays below.
    constructor
    · rintro ⟨hn, -⟩
      exact absurd hn (Nat.lt_irrefl 0)
    · rintro ⟨name, rest, heq, -, hne⟩
      rw [Nat.sub_zero, List.take_length, hnames, List.append_assoc] at heq
      have hcons := List.append_cancel_left heq
      cases hcons
      exact absurd rfl hne
  · have hk : s.names.length - n ≤ dirs.length := by
      rw [hnames, List.length_append, List.length_singleton]
      omega
    generalize s.names.length - n = k at hk
    have htake : s.names.take k = dirs.take k := by rw [hnames, List.take_append_of_le_length hk]
    have hdrop : (s.names.drop k).dropLast = dirs.drop k := by
      rw [hnames, List.drop_append_of_le_length hk, List.dropLast_concat]
    rw [htake, hdrop]
    constructor
    · rintro ⟨-, last', name, rest, hlast', rfl, hprefix, hne⟩
      cases hlast'
      refine ⟨name, rest, ?_, hprefix, hne⟩
      rw [← List.append_assoc, List.take_append_drop]
    · rintro ⟨name, rest, heq, hprefix, hne⟩
      refine ⟨hn, last, name, rest, rfl, ?_, hprefix, hne⟩
      have hsplit : dirs.take k ++ down = dirs.take k ++ (dirs.drop k ++ name :: rest) := by
        rw [heq, ← List.append_assoc, List.take_append_drop]
      exact List.append_cancel_left hsplit

private theorem exists_dirs (hroot : s.baseDir ≠ ['/']) :
    ∃ dirs last, s.names = dirs ++ [last] := by
  rcases List.eq_nil_or_concat s.names with hnil | ⟨dirs, last, heq⟩
  · rw [s.baseDir_eq, hnil] at hroot
    exact absurd rfl hroot
  · exact ⟨dirs, last, by rw [heq, List.concat_eq_append]⟩

/-- A resolved key stays within the upload directory exactly when it does not enter a sibling
whose name begins with the directory's. -/
theorem resolveKey_within_iff (hroot : s.baseDir ≠ ['/']) (key : String) :
    (∀ path, s.resolveKey key = .ok path → Within s.baseDir path) ↔ ¬ s.EntersSibling key := by
  obtain ⟨dirs, last, hnames⟩ := s.exists_dirs hroot
  have hname : ∀ n ∈ dirs ++ [last], IsName n := by
    intro n hn
    exact s.isName_of_mem_names (hnames ▸ hn)
  have hprefix : s.baseDir <+: absolute (s.target key) ↔
      ∃ name rest, s.target key = dirs ++ name :: rest ∧ last <+: name := by
    rw [s.baseDir_eq, hnames]
    exact absolute_prefix_iff hname fun _ => s.isName_of_mem_target
  have hwithin : Within s.baseDir (absolute (s.target key)) ↔ dirs ++ [last] <+: s.target key := by
    rw [s.baseDir_eq, hnames]
    exact within_absolute_iff (by simp) hname fun _ => s.isName_of_mem_target
  rw [s.entersSibling_iff hnames]
  constructor
  · rintro h ⟨name, rest, htarget, hlast, hne⟩
    have hok := s.resolveKey_eq_ok.mpr ⟨rfl, hprefix.mpr ⟨name, rest, htarget, hlast⟩⟩
    obtain ⟨rest', hrest⟩ := hwithin.mp (h _ hok)
    rw [htarget, List.append_assoc] at hrest
    have hcons := List.append_cancel_left hrest
    cases hcons
    exact hne rfl
  · intro h path hok
    obtain ⟨rfl, hbase⟩ := s.resolveKey_eq_ok.mp hok
    obtain ⟨name, rest, htarget, hlast⟩ := hprefix.mp hbase
    apply hwithin.mpr
    by_cases heq : name = last
    · subst heq
      rw [htarget]
      exact ⟨rest, by simp⟩
    · exact absurd ⟨name, rest, htarget, hlast, heq⟩ h

/-- The files of a server that keeps its uploads in `/srv/uploads`. -/
def srvUploads : LocalDiskStorageService := ofConfig "/srv/app".toList (some "/srv/uploads")

/-- The key of a document stays within the upload directory. -/
theorem resolveKey_within_srvUploads :
    srvUploads.baseDir ≠ ['/'] ∧
      ((∀ path, srvUploads.resolveKey "driver-documents/../x.pdf" = .ok path →
        Within srvUploads.baseDir path) ↔ ¬ srvUploads.EntersSibling "driver-documents/../x.pdf") :=
  ⟨by decide, resolveKey_within_iff srvUploads (by decide) _⟩

/-- The directory beside the upload directory begins with the same letters, so the guard lets a
key through that leads there. -/
theorem resolveKey_escapes_srvUploads :
    srvUploads.baseDir = "/srv/uploads".toList ∧
      srvUploads.resolveKey "../uploads-old/x.pdf" = .ok "/srv/uploads-old/x.pdf".toList ∧
      ¬ Within srvUploads.baseDir "/srv/uploads-old/x.pdf".toList := by
  decide

section Calls

/-- A call of the storage. -/
inductive StorageCall where
  | save (key buffer : String)
  | read (key : String)
  | delete (key : String)

def StorageCall.key : StorageCall → String
  | .save key _ => key
  | .read key => key
  | .delete key => key

/-- The disk after a call; one that throws leaves it as it was. -/
def perform (disk : Disk) : StorageCall → Disk
  | .save key buffer => (s.save key buffer disk).toOption.getD disk
  | .read _ => disk
  | .delete key => (s.delete key disk).toOption.getD disk

private theorem getD_of_ne {x : Except StorageError Disk} {disk : Disk} {key : String} {p : Path}
    {content : Option String}
    (hx : ∀ disk', x = .ok disk' →
      ∃ path, s.resolveKey key = .ok path ∧ disk' = Function.update disk path content)
    (h : ∀ path, s.resolveKey key = .ok path → path ≠ p) :
    x.toOption.getD disk p = disk p := by
  cases x with
  | error e => rfl
  | ok disk' =>
      obtain ⟨path, hkey, rfl⟩ := hx disk' rfl
      exact Function.update_of_ne (h path hkey).symm _ _

/-- A call changes at most the file its key resolves to. -/
theorem perform_of_ne {disk : Disk} {c : StorageCall} {p : Path}
    (h : ∀ path, s.resolveKey c.key = .ok path → path ≠ p) : s.perform disk c p = disk p := by
  cases c with
  | save key buffer => exact s.getD_of_ne (fun disk' => s.save_eq_ok.mp) h
  | read key => rfl
  | delete key => exact s.getD_of_ne (fun disk' => s.delete_eq_ok.mp) h

/-- Calls whose keys resolve within the upload directory leave every other file alone. -/
theorem run_outside {calls : List StorageCall}
    (hcalls : ∀ c ∈ calls, ∀ path, s.resolveKey c.key = .ok path → Within s.baseDir path)
    (disk : Disk) {p : Path} (hp : ¬ Within s.baseDir p) :
    calls.foldl s.perform disk p = disk p := by
  induction calls generalizing disk with
  | nil => rfl
  | cons c calls ih =>
      obtain ⟨hc, hrest⟩ := List.forall_mem_cons.mp hcalls
      rw [List.foldl_cons, ih hrest]
      apply s.perform_of_ne
      rintro path hkey rfl
      exact hp (hc path hkey)

end Calls

section PlainKeys

/-- A key that is names joined by separators. -/
def PlainKey (key : String) : Prop :=
  ∃ names, names ≠ [] ∧ (∀ n ∈ names, IsName n) ∧ key.toList = ['/'].intercalate names

theorem PlainKey.segments_eq {key : String} (h : PlainKey key) :
    segments key.toList ≠ [] ∧ (∀ n ∈ segments key.toList, IsName n) := by
  obtain ⟨names, hne, hnames, hkey⟩ := h
  have hsegments : segments key.toList = names := by
    rw [hkey]
    exact List.splitOn_intercalate '/' (fun n hn => (hnames n hn).no_slash) hne
  rw [hsegments]
  exact ⟨hne, hnames⟩

/-- Where a plain key leads, as the names from the root. -/
def plainPath (key : String) : Path := absolute (s.names ++ segments key.toList)

private theorem target_plain {key : String} (h : PlainKey key) :
    s.target key = s.names ++ segments key.toList := by
  obtain ⟨hne, hnames⟩ := h.segments_eq
  obtain ⟨hclimbs, hdescends⟩ :=
    climbs_descends_of_names hne hnames (List.intercalate_splitOn '/').symm
  rw [target, hclimbs, hdescends, Nat.sub_zero, List.take_length]

/-- A plain key leads below the upload directory. -/
theorem within_plainPath (hroot : s.baseDir ≠ ['/']) {key : String} (h : PlainKey key) :
    Within s.baseDir (s.plainPath key) := by
  obtain ⟨dirs, last, hdirs⟩ := s.exists_dirs hroot
  have htarget := s.target_plain h
  rw [plainPath, ← htarget, s.baseDir_eq]
  apply (within_absolute_iff _ (fun _ => s.isName_of_mem_names) fun _ =>
    s.isName_of_mem_target).mpr
  · rw [htarget]
    exact List.prefix_append _ _
  · rw [hdirs]
    simp

/-- It leads there by its own names. -/
theorem resolveKey_plain {key : String} (h : PlainKey key) :
    s.resolveKey key = .ok (s.plainPath key) := by
  apply s.resolveKey_eq_ok.mpr
  constructor
  · rw [plainPath, s.target_plain h]
  · by_cases hroot : s.baseDir = ['/']
    · rw [hroot]
      exact List.prefix_append ['/'] _
    · exact Within.prefix (s.within_plainPath hroot h)

/-- Two plain keys lead to one file only when they are equal. -/
theorem plainPath_injective {key key' : String} (h : PlainKey key) (h' : PlainKey key')
    (heq : s.plainPath key = s.plainPath key') : key = key' := by
  have hname : ∀ {key : String}, PlainKey key → ∀ n ∈ s.names ++ segments key.toList, IsName n := by
    intro key h n hn
    rcases List.mem_append.mp hn with hn | hn
    · exact s.isName_of_mem_names hn
    · exact h.segments_eq.2 n hn
  have hsegs := List.append_cancel_left (absolute_injective (hname h) (hname h') heq)
  apply String.toList_inj.mp
  calc
    key.toList = ['/'].intercalate (segments key.toList) := (List.intercalate_splitOn '/').symm
    _ = ['/'].intercalate (segments key'.toList) := by rw [hsegs]
    _ = key'.toList := List.intercalate_splitOn '/'

/-- The disk holds the files of a storage that knows keys alone. -/
def Holds (files : String → Option String) (disk : Disk) : Prop :=
  ∀ key, PlainKey key → disk (s.plainPath key) = files key

variable {s} {files : String → Option String} {disk : Disk} {key : String}

private theorem Holds.update (h : s.Holds files disk) (hkey : PlainKey key)
    (content : Option String) :
    s.Holds (Function.update files key content)
      (Function.update disk (s.plainPath key) content) := by
  intro key' hkey'
  by_cases heq : key' = key
  · subst heq
    rw [Function.update_self, Function.update_self]
  · have hne : s.plainPath key' ≠ s.plainPath key := by
      intro hpath
      exact heq (s.plainPath_injective hkey' hkey hpath)
    rw [Function.update_of_ne heq, Function.update_of_ne hne]
    exact h key' hkey'

/-- Saving under a plain key is saving in the storage of keys. -/
theorem Holds.save (h : s.Holds files disk) (hkey : PlainKey key) (buffer : String) :
    ∃ disk', s.save key buffer disk = .ok disk' ∧
      s.Holds (Function.update files key (some buffer)) disk' := by
  refine ⟨_, s.save_eq_ok.mpr ⟨_, s.resolveKey_plain hkey, rfl⟩, ?_⟩
  exact h.update hkey (some buffer)

theorem Holds.delete (h : s.Holds files disk) (hkey : PlainKey key) :
    ∃ disk', s.delete key disk = .ok disk' ∧
      s.Holds (Function.update files key none) disk' := by
  refine ⟨_, s.delete_eq_ok.mpr ⟨_, s.resolveKey_plain hkey, rfl⟩, ?_⟩
  exact h.update hkey none

theorem Holds.read (h : s.Holds files disk) (hkey : PlainKey key) (buffer : String) :
    s.read key disk = .ok buffer ↔ files key = some buffer := by
  rw [s.read_eq_ok, ← h key hkey, s.resolveKey_plain hkey]
  constructor
  · rintro ⟨path, ⟨⟩, hpath⟩
    exact hpath
  · intro hpath
    exact ⟨_, rfl, hpath⟩

/-- The call of the storage a statement makes. -/
def storageCall : OnboardingStmt → Option StorageCall
  | .saveFile key buffer => some (.save key buffer)
  | .deleteFile key => some (.delete key)
  | _ => none

/-- While its keys are plain, the disk keeps holding the files of the registry. -/
theorem Holds.exec {cfg : Config} {o : OnboardingStmt} {b : o.Res} {r r' : Registry}
    (h : s.Holds r.files disk) (hexec : Registry.exec cfg o r = .ok (b, r'))
    (hplain : ∀ c, storageCall o = some c → PlainKey c.key) :
    s.Holds r'.files ((storageCall o).elim disk (s.perform disk)) := by
  cases o with
  | saveFile key buffer =>
      cases hexec
      have hkey : PlainKey key := hplain _ rfl
      obtain ⟨disk', hsave, hholds⟩ := h.save hkey buffer
      have hperform : s.perform disk (.save key buffer) = disk' := by
        rw [perform, hsave]
        rfl
      rw [← hperform] at hholds
      exact hholds
  | deleteFile key =>
      cases hexec
      have hkey : PlainKey key := hplain _ rfl
      obtain ⟨disk', hdelete, hholds⟩ := h.delete hkey
      have hperform : s.perform disk (.delete key) = disk' := by
        rw [perform, hdelete]
        rfl
      rw [← hperform] at hholds
      exact hholds
  | _ =>
      have hfiles := Registry.exec_files hexec (by simp) (by simp)
      rw [hfiles]
      exact h

private theorem no_slash_extname (path : String) :
    '/' ∉ (DriverDocumentsService.extname path).toList := by
  intro h
  simp only [DriverDocumentsService.extname] at h
  split at h
  · simp at h
  · simp at h
  · split at h
    · simp at h
    · rw [String.toList_ofList, List.mem_cons, List.mem_reverse] at h
      rcases h with h | h
      · exact absurd h (by decide)
      · have hseg := (List.takeWhile_sublist _).subset h
        have hslash := List.mem_takeWhile_imp hseg
        simp at hslash

/-- The keys of driver documents are plain. -/
theorem plainKey_storageKey {driverApplicationId : Id} {u : Upload}
    (hid : IsName driverApplicationId.toList) (huuid : '/' ∉ u.keyUuid.toList) :
    PlainKey (DriverDocumentsService.storageKey driverApplicationId u) := by
  have htext : '/' ∉ u.type.text.toList := by
    cases u.type <;> decide
  have hfile : IsName (u.type.text ++ "-" ++ u.keyUuid ++
      DriverDocumentsService.extname u.file.originalname).toList := by
    apply IsName.of_mem (c := '-')
    · simp
    · decide
    · simp [htext, huuid, no_slash_extname]
  have hdir : IsName "driver-documents".toList := by decide
  have hkey : DriverDocumentsService.storageKey driverApplicationId u =
      "driver-documents" ++ "/" ++ driverApplicationId ++ "/" ++ (u.type.text ++ "-" ++ u.keyUuid ++
        DriverDocumentsService.extname u.file.originalname) := by
    have hslash : "driver-documents/" = "driver-documents" ++ "/" := by simp
    unfold DriverDocumentsService.storageKey
    simp only [hslash, String.append_assoc]
  rw [hkey]
  generalize u.type.text ++ "-" ++ u.keyUuid ++
    DriverDocumentsService.extname u.file.originalname = file at hfile
  generalize "driver-documents" = dir at hdir
  refine ⟨[dir.toList, driverApplicationId.toList, file.toList], by simp, ?_, ?_⟩
  · simp only [List.forall_mem_cons]
    exact ⟨hdir, hid, hfile, fun n hn => absurd hn List.not_mem_nil⟩
  · simp [String.toList_append]

end PlainKeys

/-- An upload whose application and key are numbered by names. -/
structure PlainUpload extends DocumentUpload where
  application : IsName driverApplicationId.toList
  uuid : '/' ∉ upload.keyUuid.toList

/-- The uploads of a database that numbers its rows by names. -/
def plainUploadSystem (cfg : Config) :
    System onboardingSignature ServiceError Registry PlainUpload :=
  { uploadSystem cfg with code := fun i => (uploadSystem cfg).code i.toDocumentUpload }

section Uploads
variable (s : LocalDiskStorageService) (disk : Disk) {cfg : Config}

/-- The storage calls of a history. -/
def storageCalls (w : World onboardingSignature Registry PlainUpload) : List StorageCall :=
  w.trace.filterMap fun c => storageCall c.op

/-- The keys that a statement stores or uses are plain. -/
def PlainKeys (_ : World onboardingSignature Registry PlainUpload) (_ : PlainUpload) :
    OnboardingStmt → Prop
  | .findDocument _ _ => True
  | .saveFile key _ | .deleteFile key => PlainKey key
  | .upsertDocument _ _ document _ => PlainKey document.storageKey
  | _ => False

/-- Having carried out the storage calls of a run, the disk holds the files of the
registry, with plain keys everywhere. -/
structure OnDisk (w : World onboardingSignature Registry PlainUpload) : Prop where
  rows : ∀ d ∈ w.shared.driverDocuments, PlainKey d.storageKey
  calls : ∀ c ∈ storageCalls w, PlainKey c.key
  held : s.Holds w.shared.files ((storageCalls w).foldl s.perform disk)

private theorem upload_plainKeys (i : PlainUpload)
    (w : World onboardingSignature Registry PlainUpload) :
    Justified (plainUploadSystem cfg) (s.OnDisk disk) (fun _ _ => True) PlainKeys i
      ((plainUploadSystem cfg).code i) w := by
  have hkey : PlainKey i.storageKey := plainKey_storageKey i.application i.uuid
  apply Justified.void
  apply Justified.ensure_bind
  intro _
  refine Justified.perform_bind fun w₁ h₁ _ => ⟨trivial, fun existing s₁ hfind n₁ => ?_⟩
  have hprevious : ∀ previous, existing = some previous → PlainKey previous.storageKey := by
    rintro previous rfl
    obtain ⟨hd, -⟩ := Table.find?_some (congrArg Prod.fst (Except.ok.inj hfind))
    exact h₁.rows previous hd
  refine Justified.perform_bind fun w₂ _ _ => ⟨hkey, fun _ s₂ _ n₂ => ?_⟩
  refine Justified.perform_bind fun w₃ _ _ => ⟨hkey, fun document s₃ _ n₃ => ?_⟩
  cases existing with
  | none => trivial
  | some previous =>
      dsimp only
      split
      · refine Justified.bind (Justified.recover ?_ fun _ _ => trivial) fun _ _ => trivial
        exact fun _ _ _ => ⟨hprevious previous rfl, fun _ _ _ _ => trivial, fun _ => trivial⟩
      · trivial

private theorem OnDisk.commit {w : World onboardingSignature Registry PlainUpload} {n : Nat}
    {i : PlainUpload} {o : OnboardingStmt} {b : o.Res} {r : Registry} (h : s.OnDisk disk w)
    (hJ : PlainKeys w i o) (hx : Registry.exec cfg o w.shared = .ok (b, r)) :
    s.OnDisk disk (w.commit n i o r) := by
  have hcalls : storageCalls (w.commit n i o r) = storageCalls w ++ (storageCall o).toList := by
    unfold storageCalls
    cases hc : storageCall o <;> simp [hc]
  have hplain : ∀ c, storageCall o = some c → PlainKey c.key := by
    intro c hc
    cases o with
    | saveFile key buffer =>
        cases hc
        exact hJ
    | deleteFile key =>
        cases hc
        exact hJ
    | _ => cases hc
  constructor
  · rw [World.commit_shared]
    cases o with
    | findDocument driverApplicationId type =>
        cases hx
        exact h.rows
    | saveFile key buffer =>
        cases hx
        exact h.rows
    | deleteFile key =>
        cases hx
        exact h.rows
    | upsertDocument driverApplicationId type document uuid =>
        obtain ⟨-, hothers, hwritten⟩ := Registry.upsertDocument_effect (Registry.thrown_ok hx)
        intro d hd
        by_cases hslot : d.slot = (driverApplicationId, type)
        · have hkey : d.storageKey = document.storageKey :=
            congrArg StoredDocument.storageKey (hwritten d hd hslot)
          exact hkey ▸ hJ
        · exact h.rows d ((hothers d hslot).mp hd)
    | _ => exact hJ.elim
  · intro c hc
    rw [hcalls, List.mem_append, Option.mem_toList] at hc
    rcases hc with hold | hnew
    · exact h.calls c hold
    · exact hplain c hnew
  · have hafter : (storageCalls (w.commit n i o r)).foldl s.perform disk =
        (storageCall o).elim ((storageCalls w).foldl s.perform disk)
          (s.perform ((storageCalls w).foldl s.perform disk)) := by
      rw [hcalls, List.foldl_append]
      cases storageCall o <;> rfl
    rw [hafter, World.commit_shared]
    exact h.held.exec hx hplain

theorem onDisk_discipline :
    Discipline (plainUploadSystem cfg) (s.OnDisk disk) (fun _ _ => True) PlainKeys where
  refl _ := trivial
  trans _ _ := trivial
  start i w _ := s.upload_plainKeys disk i w
  keep h hJ hx := ⟨h.commit s disk hJ hx, trivial⟩

/-- However uploads overlap, fail and stop, the disk that has carried out their storage
calls has under the key of each document what the registry has there, and outside the
upload directory what it had before. -/
theorem documents_onDisk {r : Registry} (hrows : ∀ d ∈ r.driverDocuments, PlainKey d.storageKey)
    (hheld : s.Holds r.files disk) (ms : List (Move PlainUpload)) :
    let w := ((Pool.init r).run (plainUploadSystem cfg) ms).world
    let disk' := (storageCalls w).foldl s.perform disk
    (∀ d ∈ w.shared.driverDocuments, ∀ buffer,
        s.read d.storageKey disk' = .ok buffer ↔ w.shared.files d.storageKey = some buffer) ∧
      (s.baseDir ≠ ['/'] → ∀ p, ¬ Within s.baseDir p → disk' p = disk p) := by
  intro w disk'
  have h : s.OnDisk disk w := ((onDisk_discipline s disk).sound_run
    (Discipline.sound_init _ ⟨hrows, fun _ hc => absurd hc List.not_mem_nil, hheld⟩) ms).1
  constructor
  · intro d hd buffer
    exact h.held.read (h.rows d hd) buffer
  · intro hroot p hp
    apply s.run_outside _ disk hp
    intro c hc path hpath
    rw [s.resolveKey_plain (h.calls c hc)] at hpath
    cases hpath
    exact s.within_plainPath hroot (h.calls c hc)

end Uploads
end LocalDiskStorageService

end Reedr
