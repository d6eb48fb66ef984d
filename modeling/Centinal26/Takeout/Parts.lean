/-
The acquisition of a multipart Takeout export: every part is kept under its digest and its file
name, inspected, and listed in a manifest.
-/
import Centinal26.Export.Preserve
import Centinal26.Lib.Sorted
import Centinal26.Py.Utf8

namespace Centinal26.Takeout

open Py

-- == files

structure Path where
  dir : PyStr
  name : PyStr
deriving DecidableEq

def Path.str (p : Path) : PyStr := p.dir ++ 47 :: p.name

abbrev Files := Path → Option ByteArray

def Files.write (files : Files) (p : Path) (b : ByteArray) : Files :=
  fun q => if q = p then some b else files q

inductive TakeoutError : Type
  | oserror
  | value (message : String)
  | runtime (message : String)
  /-- `UnicodeEncodeError` or `UnicodeDecodeError` -/
  | unicode
  /-- what else an archive library raises -/
  | library
deriving DecidableEq

/-- What an archive library raises: `OSError`, `TarError` or `BadZipFile` by name, or another
exception. -/
inductive ArchiveError : Type
  | caught (typeName : PyStr)
  | other

structure Libraries where
  /-- `path.resolve(strict=True)`, `none` where it raises -/
  resolve : Path → Option Path
  /-- `hashlib.sha256(data).hexdigest()` -/
  sha256 : ByteArray → PyStr
  /-- `zipfile.is_zipfile` -/
  isZip : ByteArray → Bool
  /-- `testzip()` and `namelist()` of the archive -/
  zip : ByteArray → Except ArchiveError (Option PyStr × List PyStr)
  /-- `tarfile.is_tarfile` -/
  isTar : ByteArray → Except ArchiveError Bool
  /-- the names of `getmembers()` -/
  tar : ByteArray → Except ArchiveError (List PyStr)
  lower : PyStr → PyStr
  /-- `read_text(encoding="utf-8")`, `none` where it raises -/
  readText : ByteArray → Option PyStr

def Libraries.CollisionFree (L : Libraries) : Prop := Function.Injective L.sha256

def leafName (name : PyStr) : PyStr :=
  ((Export.components name).filter fun c => decide (c ≠ [] ∧ c ≠ [46])).getLast?.getD []

def safeFilename (name : PyStr) : Except TakeoutError PyStr :=
  let leaf := strStrip (leafName name)
  if leaf = [] ∨ leaf = [46] ∨ leaf = [46, 46] then .error (.value "invalid filename")
  else .ok leaf

-- == archives

structure ArchiveInspection where
  archiveType : PyStr
  integrityPass : Bool
  memberCount : Nat
  members : List PyStr
  archiveBrowserHtml : List PyStr
  errorHtml : List PyStr
  inspectionError : Option PyStr

/-- What an inspection that cannot read the archive returns. -/
def unreadable (archiveType error : PyStr) : ArchiveInspection :=
  ⟨archiveType, false, 0, [], [], [], some error⟩

/-- What an inspection of these names returns. -/
def inspected (lower : PyStr → PyStr) (archiveType : PyStr) (pass : Bool) (names : List PyStr)
    (error : Option PyStr) : ArchiveInspection where
  archiveType := archiveType
  integrityPass := pass
  memberCount := names.length
  members := names
  archiveBrowserHtml := names.filter fun n => (py "archive_browser.html").isSuffixOf (lower n)
  errorHtml := names.filter fun n =>
    (py ".html").isSuffixOf (lower n) && (decide (py "error" <:+: lower n)
      || decide (py "failed" <:+: lower n) || decide (py "failure" <:+: lower n))
  inspectionError := error

section Acquisition

variable (L : Libraries)

def inspectContent (b : ByteArray) : Except TakeoutError ArchiveInspection :=
  if L.isZip b then
    match L.zip b with
    | .ok (bad, names) => .ok (inspected L.lower (py "ZIP") bad.isNone names
        (bad.map fun name => py "zip CRC failure: " ++ name))
    | .error (.caught typeName) => .ok (unreadable (py "ZIP") typeName)
    | .error .other => .error .library
  else
    match L.isTar b with
    | .ok true =>
      match L.tar b with
      | .ok names => .ok (inspected L.lower (py "TAR") true names none)
      | .error (.caught typeName) => .ok (unreadable (py "TAR") typeName)
      | .error .other => .error .library
    | .ok false => .ok (unreadable (py "UNKNOWN") (py "unsupported archive"))
    | .error (.caught typeName) => .ok (unreadable (py "UNKNOWN") typeName)
    | .error .other => .error .library

def inspectArchive (files : Files) (p : Path) : Except TakeoutError ArchiveInspection :=
  match files p with
  | some b => inspectContent L b
  | none => .ok (unreadable (py "UNKNOWN") (py "FileNotFoundError"))

-- == preservation

/-- What the manifest lists of a part. -/
structure StoredPart where
  filename : PyStr
  sha256 : PyStr
  sizeBytes : Nat
  storagePath : Path

structure PreservedRaw extends StoredPart where
  sourcePath : Path
  deduplicated : Bool

variable (root : PyStr)

def rawDir (digest : PyStr) : PyStr := root ++ py "/raw/" ++ digest

/-- `evidence_root / "derived" / "manifests"`. -/
def manifestDir : PyStr := root ++ py "/derived/manifests"

def preserveRawArchive (files : Files) (source : Path) :
    Except TakeoutError (PreservedRaw × Files) :=
  match L.resolve source with
  | none => .error .oserror
  | some source =>
    match files source with
    | none => .error .oserror
    | some content =>
      match safeFilename source.name with
      | .error e => .error e
      | .ok filename =>
        let digest := L.sha256 content
        let target : Path := ⟨rawDir root digest, filename⟩
        let stored : StoredPart := ⟨filename, digest, content.size, target⟩
        match files target with
        | some existing =>
          if L.sha256 existing ≠ digest ∨ existing.size ≠ content.size then
            .error (.runtime "content-addressed evidence collision")
          else .ok (⟨stored, source, true⟩, files)
        | none => .ok (⟨stored, source, false⟩, files.write target content)

/-- `tuple(preserve_raw_archive(path, evidence_root) for path in part_paths)`. -/
def keepAll : Files → List Path → Except TakeoutError (List PreservedRaw × Files)
  | files, [] => .ok ([], files)
  | files, p :: rest =>
    match preserveRawArchive L root files p with
    | .error e => .error e
    | .ok (item, files) =>
      match keepAll files rest with
      | .error e => .error e
      | .ok (items, files) => .ok (item :: items, files)

/-- `{item.filename: inspect_archive(Path(item.storage_path)) for item in preserved}`. -/
def inspectAll (files : Files) : List PreservedRaw → Dict PyStr ArchiveInspection →
    Except TakeoutError (Dict PyStr ArchiveInspection)
  | [], inspections => .ok inspections
  | item :: rest, inspections =>
    match inspectArchive L files item.storagePath with
    | .error e => .error e
    | .ok inspection => inspectAll files rest (inspections.set item.filename inspection)

-- == manifest

structure PartRecord where
  ordinal : Nat
  stored : StoredPart

structure MultipartManifest where
  manifestId : PyStr
  manifestSha256 : PyStr
  parts : List PartRecord
  expectedParts : List PyStr
  missingParts : List PyStr
  unexpectedParts : List PyStr
  providerReportsOmissions : Bool
  providerComplete : Bool

/-- `asdict(part)`, its keys in order. -/
def PartRecord.json (r : PartRecord) : Json := .obj [
  (py "filename", .str r.stored.filename), (py "ordinal", .int r.ordinal),
  (py "sha256", .str r.stored.sha256), (py "size_bytes", .int r.stored.sizeBytes),
  (py "storage_path", .str r.stored.storagePath.str)]

def names (parts : List PyStr) : Json := .arr (parts.map .str)

def manifestPayload (parts : List PartRecord) (expected missing unexpected : List PyStr)
    (omissions : Bool) : Json := .obj [
  (py "expected_parts", names expected), (py "missing_parts", names missing),
  (py "parts", .arr (parts.map PartRecord.json)),
  (py "provider_reports_omissions", .bool omissions), (py "unexpected_parts", names unexpected)]

/-- `asdict(manifest)`, its keys in order. -/
def MultipartManifest.json (m : MultipartManifest) : Json := .obj [
  (py "expected_parts", names m.expectedParts), (py "manifest_id", .str m.manifestId),
  (py "manifest_sha256", .str m.manifestSha256), (py "missing_parts", names m.missingParts),
  (py "parts", .arr (m.parts.map PartRecord.json)),
  (py "provider_complete", .bool m.providerComplete),
  (py "provider_reports_omissions", .bool m.providerReportsOmissions),
  (py "unexpected_parts", names m.unexpectedParts)]

def byName (parts : List StoredPart) : List StoredPart := Lib.sortedBy StoredPart.filename parts

/-- `enumerate(preserved)`. -/
def numbered (n : Nat) : List StoredPart → List PartRecord
  | [] => []
  | s :: rest => ⟨n, s⟩ :: numbered (n + 1) rest

def manifestOf (preserved : List StoredPart) (expected : List PyStr) (omissions : Bool) :
    Except TakeoutError MultipartManifest :=
  let records := numbered 1 preserved
  let actualNames := preserved.map StoredPart.filename
  let missing := expected.filter fun n => decide (n ∉ actualNames)
  let unexpected :=
    if expected = [] then []
    else (actualNames.eraseDups.filter fun n => decide (n ∉ expected)).insertionSort (· ≤ ·)
  let payload := manifestPayload records expected missing unexpected omissions
  match encode (payload.text .canonical) with
  | .error _ => .error .unicode
  | .ok text =>
    let sha := L.sha256 text.utf8
    .ok ⟨py "manifest:" ++ sha.take 24, sha, records, expected, missing, unexpected, omissions,
      decide (records ≠ []) && decide (missing = []) && !omissions && decide (expected ≠ [])⟩

/-- `safe_filename(name) for name in expected_parts`. -/
def safeNames : List PyStr → Except TakeoutError (List PyStr)
  | [] => .ok []
  | n :: rest => do .ok ((← safeFilename n) :: (← safeNames rest))

def buildMultipartManifest (preserved : List PreservedRaw) (expectedParts : List PyStr)
    (omissions : Bool) : Except TakeoutError MultipartManifest :=
  match safeNames expectedParts with
  | .error e => .error e
  | .ok expected =>
    manifestOf L (byName (preserved.map PreservedRaw.toStoredPart)) expected.eraseDups omissions

def writeDerivedManifest (files : Files) (m : MultipartManifest) : Except TakeoutError Path :=
  let target : Path := ⟨manifestDir root, m.manifestSha256 ++ py ".json"⟩
  let serialized := m.json.text .canonical ++ [10]
  match files target with
  | some existing =>
    match L.readText existing with
    | none => .error .unicode
    | some text =>
      if text ≠ serialized then .error (.runtime "manifest digest collision") else .ok target
  | none => if Py.Encodable serialized then .ok target else .error .unicode

structure ManifestRecord where
  evidenceId : PyStr
  rawObjectIdentity : PyStr
  rawFilename : PyStr
  contentSha256 : PyStr
  storageUri : Path
  parentEvidenceIds : List PyStr
  inspections : Dict PyStr ArchiveInspection
  validationStatus : String
  integrityStatus : String
  providerCompleteness : String
  missingParts : List PyStr
  providerReportsOmissions : Bool

def manifestRecord (preserved : List PreservedRaw) (inspections : Dict PyStr ArchiveInspection)
    (m : MultipartManifest) (path : Path) (omissions : Bool) : ManifestRecord :=
  let completeness :=
    if omissions || decide (m.missingParts ≠ []) then "INCOMPLETE"
    else if m.providerComplete then "COMPLETE" else "UNKNOWN"
  { evidenceId := py "evidence:google-takeout:manifest:" ++ m.manifestSha256.take 24
    rawObjectIdentity := m.manifestId
    rawFilename := path.name
    contentSha256 := m.manifestSha256
    storageUri := path
    parentEvidenceIds := preserved.map fun item =>
      py "evidence:google takeout:" ++ item.sha256.take 24
    inspections := inspections
    validationStatus :=
      if completeness = "COMPLETE" then "EXPORT_ACQUIRED" else "EXPORT_INCOMPLETE"
    integrityStatus :=
      if inspections.items.all fun i => i.2.integrityPass then "PASS" else "FAIL"
    providerCompleteness := completeness
    missingParts := m.missingParts
    providerReportsOmissions := omissions }

def ingestTakeoutParts (files : Files) (partPaths : List Path) (expectedParts : List PyStr)
    (omissions : Bool) : Except TakeoutError ManifestRecord :=
  match keepAll L root files partPaths with
  | .error e => .error e
  | .ok (preserved, kept) =>
    match inspectAll L kept preserved .empty with
    | .error e => .error e
    | .ok inspections =>
      match buildMultipartManifest L preserved expectedParts omissions with
      | .error e => .error e
      | .ok manifest =>
        match writeDerivedManifest L root kept manifest with
        | .error e => .error e
        | .ok path => .ok (manifestRecord preserved inspections manifest path omissions)

end Acquisition

-- == parts

/-- What counts of a part file. -/
structure Part where
  name : PyStr
  content : ByteArray

section Parts

variable (L : Libraries) (root : PyStr)

def Part.stored (q : Part) : StoredPart :=
  ⟨q.name, L.sha256 q.content, q.content.size, ⟨rawDir root (L.sha256 q.content), q.name⟩⟩

def Part.target (q : Part) : Path := (q.stored L root).storagePath

def IsFile (files : Files) (p : Path) : Prop :=
  ∃ source content, L.resolve p = some source ∧ files source = some content

/-- The part a path leads to, if its name is safe. -/
def part? (files : Files) (p : Path) : Option Part :=
  (L.resolve p).bind fun source => (files source).bind fun content =>
    (safeFilename source.name).toOption.map fun name => ⟨name, content⟩

def partsOf (files : Files) (ps : List Path) : List Part := ps.filterMap (part? L files)

/-- Nothing else is where the part is to be kept. -/
def Fits (files : Files) (q : Part) : Prop :=
  ∀ b, files (q.target L root) = some b → b = q.content

def Part.keep (files : Files) (q : Part) : Files := files.write (q.target L root) q.content

end Parts

section Keeping

variable {L : Libraries} {root : PyStr} {files : Files}

variable {q q' : Part} {p : Path}

theorem keep_of_fits (h : Fits L root files q) {b : ByteArray}
    (hp : files p = some b) : q.keep L root files p = some b := by
  unfold Part.keep Files.write
  split
  · next heq =>
    rw [h b (heq ▸ hp)]
  · exact hp

theorem isFile_keep (h : Fits L root files q) (hp : IsFile L files p) :
    IsFile L (q.keep L root files) p := by
  obtain ⟨source, content, hsource, hcontent⟩ := hp
  exact ⟨source, content, hsource, keep_of_fits h hcontent⟩

theorem part?_keep (h : Fits L root files q) (hp : IsFile L files p) :
    part? L (q.keep L root files) p = part? L files p := by
  obtain ⟨source, content, hsource, hcontent⟩ := hp
  rw [part?, part?, hsource, Option.bind_some, Option.bind_some, hcontent, keep_of_fits h hcontent]

theorem preserveRawArchive_ok (hL : L.CollisionFree) {item : PreservedRaw}
    {kept : Files} (h : preserveRawArchive L root files p = .ok (item, kept)) :
    ∃ q, part? L files p = some q ∧ item.toStoredPart = q.stored L root
      ∧ kept = q.keep L root files ∧ Fits L root files q := by
  unfold preserveRawArchive at h
  split at h
  · cases h
  · next source hsource =>
    split at h
    · cases h
    · next content hcontent =>
      split at h
      · cases h
      · next filename hname =>
        refine ⟨⟨filename, content⟩, ?_, ?_⟩
        · rw [part?, hsource, Option.bind_some, hcontent, Option.bind_some, hname]
          rfl
        · dsimp only at h
          split at h
          · next existing hexisting =>
            split at h
            · cases h
            · next hsame =>
              cases h
              have hcontent : existing = content := by
                rw [not_or, not_not] at hsame
                exact hL hsame.1
              subst hcontent
              have hfits : Fits L root files ⟨filename, existing⟩ := by
                intro b hb
                exact Option.some_inj.mp (hb.symm.trans hexisting)
              refine ⟨rfl, ?_, hfits⟩
              funext r
              unfold Part.keep Files.write
              split
              · next heq => exact heq ▸ hexisting
              · rfl
          · next hnone =>
            cases h
            refine ⟨rfl, rfl, fun b hb => ?_⟩
            cases hb.symm.trans hnone

theorem preserveRawArchive_of_fits (hq : part? L files p = some q)
    (h : Fits L root files q) : ∃ item, preserveRawArchive L root files p
      = .ok (item, q.keep L root files) ∧ item.toStoredPart = q.stored L root := by
  unfold part? at hq
  obtain ⟨source, hsource, hq⟩ := Option.bind_eq_some_iff.mp hq
  obtain ⟨content, hcontent, hq⟩ := Option.bind_eq_some_iff.mp hq
  obtain ⟨filename, hname, rfl⟩ := Option.map_eq_some_iff.mp hq
  have hname : safeFilename source.name = .ok filename := by
    cases hn : safeFilename source.name with
    | error e =>
      rw [hn] at hname
      cases hname
    | ok n =>
      rw [hn] at hname
      cases hname
      rfl
  unfold preserveRawArchive
  rw [hsource]
  dsimp only
  rw [hcontent, hname]
  dsimp only
  cases hexisting : files ⟨rawDir root (L.sha256 content), filename⟩ with
  | none => exact ⟨_, rfl, rfl⟩
  | some existing =>
    have heq : existing = content := h existing hexisting
    subst heq
    refine ⟨⟨⟨filename, L.sha256 existing, existing.size,
      ⟨rawDir root (L.sha256 existing), filename⟩⟩, source, true⟩, ?_, rfl⟩
    dsimp only
    rw [if_neg (by simp)]
    congr 2
    funext r
    unfold Part.keep Files.write
    split
    · next heq => exact heq ▸ hexisting
    · rfl

theorem fits_keep (hL : L.CollisionFree) (h : Fits L root files q') :
    Fits L root (q.keep L root files) q' := by
  intro b hb
  unfold Part.keep Files.write at hb
  split at hb
  · next heq =>
    have hdir : rawDir root (L.sha256 q'.content) = rawDir root (L.sha256 q.content) :=
      congrArg Path.dir heq
    have hsha := List.append_cancel_left hdir
    cases hb
    exact (hL hsha).symm
  · exact h b hb

theorem fits_of_keep (hq : Fits L root files q)
    (h : Fits L root (q.keep L root files) q') : Fits L root files q' :=
  fun b hb => h b (keep_of_fits hq hb)

end Keeping

theorem keepAll_ok {L : Libraries} (hL : L.CollisionFree) {root : PyStr} {ps : List Path}
    {files kept : Files} {items : List PreservedRaw}
    (h : keepAll L root files ps = .ok (items, kept)) (hfiles : ∀ p ∈ ps, IsFile L files p) :
    (∀ p ∈ ps, (part? L files p).isSome = true)
      ∧ items.map PreservedRaw.toStoredPart = (partsOf L files ps).map (Part.stored L root)
      ∧ kept = (partsOf L files ps).foldl (fun files q => q.keep L root files) files
      ∧ ∀ q ∈ partsOf L files ps, Fits L root files q := by
  induction ps generalizing files items with
  | nil =>
    cases h
    exact ⟨nofun, rfl, rfl, nofun⟩
  | cons p rest ih =>
    unfold keepAll at h
    split at h
    · cases h
    · next item files₁ hitem =>
      split at h
      · cases h
      · next items' kept' hrest =>
        cases h
        obtain ⟨q, hq, hstored, rfl, hfits⟩ := preserveRawArchive_ok hL hitem
        have hfile : ∀ p' ∈ rest, IsFile L files p' :=
          fun p' hp' => hfiles p' (List.mem_cons_of_mem _ hp')
        have hparts : ∀ p' ∈ rest, part? L (q.keep L root files) p' = part? L files p' :=
          fun p' hp' => part?_keep hfits (hfile p' hp')
        obtain ⟨hsome, hitems, hkept, hall⟩ := ih hrest fun p' hp' =>
          isFile_keep hfits (hfile p' hp')
        have hpartsOf : partsOf L (q.keep L root files) rest = partsOf L files rest :=
          List.filterMap_congr hparts
        rw [hpartsOf] at hitems hkept hall
        have hcons : partsOf L files (p :: rest) = q :: partsOf L files rest :=
          List.filterMap_cons_some hq
        rw [hcons]
        refine ⟨?_, by rw [List.map_cons, List.map_cons, hstored, hitems], hkept, ?_⟩
        · intro p' hp'
          rcases List.mem_cons.mp hp' with rfl | hp'
          · rw [hq]
            rfl
          · rw [← hparts p' hp']
            exact hsome p' hp'
        · intro q' hq'
          rcases List.mem_cons.mp hq' with rfl | hq'
          · exact hfits
          · exact fits_of_keep hfits (hall q' hq')

theorem keepAll_of_fits {L : Libraries} (hL : L.CollisionFree) {root : PyStr} {ps : List Path}
    {files : Files} (hfiles : ∀ p ∈ ps, IsFile L files p)
    (hsome : ∀ p ∈ ps, (part? L files p).isSome = true)
    (hfits : ∀ q ∈ partsOf L files ps, Fits L root files q) : ∃ items, keepAll L root files ps
      = .ok (items, (partsOf L files ps).foldl (fun files q => q.keep L root files) files) := by
  induction ps generalizing files with
  | nil => exact ⟨[], rfl⟩
  | cons p rest ih =>
    obtain ⟨q, hq⟩ := Option.isSome_iff_exists.mp (hsome p (List.mem_cons_self ..))
    have hcons : partsOf L files (p :: rest) = q :: partsOf L files rest :=
      List.filterMap_cons_some hq
    rw [hcons] at hfits ⊢
    have hfit := hfits q (List.mem_cons_self ..)
    obtain ⟨item, hitem, -⟩ := preserveRawArchive_of_fits hq hfit
    have hfile : ∀ p' ∈ rest, IsFile L files p' :=
      fun p' hp' => hfiles p' (List.mem_cons_of_mem _ hp')
    have hparts : ∀ p' ∈ rest, part? L (q.keep L root files) p' = part? L files p' :=
      fun p' hp' => part?_keep hfit (hfile p' hp')
    have hpartsOf : partsOf L (q.keep L root files) rest = partsOf L files rest :=
      List.filterMap_congr hparts
    obtain ⟨items, hitems⟩ := ih (fun p' hp' => isFile_keep hfit (hfile p' hp')) (fun p' hp' => by
        rw [hparts p' hp']
        exact hsome p' (List.mem_cons_of_mem _ hp'))
      (fun q' hq' => by
        rw [hpartsOf] at hq'
        exact fits_keep hL (hfits q' (List.mem_cons_of_mem _ hq')))
    refine ⟨item :: items, ?_⟩
    unfold keepAll
    rw [hitem]
    dsimp only
    rw [hitems, hpartsOf]
    rfl

-- == runs

section Runs

variable {L : Libraries} {root : PyStr} {files : Files}

variable {qs : List Part} {m : MultipartManifest} {ps : List Path} {expected : List PyStr}
  {omissions : Bool}

theorem kept_of_fits (hL : L.CollisionFree) {files : Files}
    (hfits : ∀ q ∈ qs, Fits L root files q) {p : Path} {b : ByteArray} (hp : files p = some b) :
    qs.foldl (fun files q => q.keep L root files) files p = some b := by
  induction qs generalizing files with
  | nil => exact hp
  | cons q rest ih =>
    have hfit := hfits q (List.mem_cons_self ..)
    exact ih (fun q' hq' => fits_keep hL (hfits q' (List.mem_cons_of_mem _ hq')))
      (keep_of_fits hfit hp)

theorem kept_target (hL : L.CollisionFree) {files : Files}
    (hfits : ∀ q ∈ qs, Fits L root files q) : ∀ q ∈ qs,
      qs.foldl (fun files q => q.keep L root files) files (q.target L root) = some q.content := by
  induction qs generalizing files with
  | nil =>
    intro q hq
    cases hq
  | cons q rest ih =>
    have hrest : ∀ q' ∈ rest, Fits L root (q.keep L root files) q' :=
      fun q' hq' => fits_keep hL (hfits q' (List.mem_cons_of_mem _ hq'))
    intro q' hq'
    rcases List.mem_cons.mp hq' with rfl | hq'
    · exact kept_of_fits hL hrest (if_pos rfl)
    · exact ih hrest q' hq'

theorem manifest_ne_target (n : PyStr) (q : Part) :
    (⟨manifestDir root, n⟩ : Path) ≠ q.target L root := by
  intro heq
  have hdir : root ++ py "/derived/manifests" = root ++ py "/raw/" ++ L.sha256 q.content :=
    congrArg Path.dir heq
  rw [List.append_assoc] at hdir
  have hsecond := congrArg (·[1]?) (List.append_cancel_left hdir)
  have hderived : (py "/derived/manifests")[1]? = some 100 := by decide
  have hraw : (py "/raw/" ++ L.sha256 q.content)[1]? = some 114 := by
    rw [List.getElem?_append_left (by decide)]
    decide
  simp only [hderived, hraw, Option.some_inj] at hsecond
  exact absurd hsecond (by decide)

theorem kept_manifest (n : PyStr) (qs : List Part) (files : Files) :
    qs.foldl (fun files q => q.keep L root files) files ⟨manifestDir root, n⟩
      = files ⟨manifestDir root, n⟩ := by
  induction qs generalizing files with
  | nil => rfl
  | cons q rest ih =>
    rw [List.foldl_cons, ih, Part.keep, Files.write, if_neg (manifest_ne_target n q)]

variable {kept : Files} {items : List PreservedRaw} {d : Dict PyStr ArchiveInspection}

theorem writeDerivedManifest_congr {kept' : Files}
    (h : ∀ n, kept ⟨manifestDir root, n⟩ = kept' ⟨manifestDir root, n⟩) :
    writeDerivedManifest L root kept m = writeDerivedManifest L root kept' m := by
  unfold writeDerivedManifest
  dsimp only
  rw [h]

theorem inspectAll_ok {d' : Dict PyStr ArchiveInspection} (h : inspectAll L kept items d = .ok d') :
    (∀ item ∈ items, ∃ i, inspectArchive L kept item.storagePath = .ok i)
      ∧ ∀ name, (∃ item ∈ items, item.filename = name
          ∧ ∃ i, inspectArchive L kept item.storagePath = .ok i ∧ d'.get? name = some i)
        ∨ (∀ item ∈ items, item.filename ≠ name) ∧ d'.get? name = d.get? name := by
  induction items generalizing d with
  | nil =>
    cases h
    exact ⟨nofun, fun name => Or.inr ⟨nofun, rfl⟩⟩
  | cons item rest ih =>
    unfold inspectAll at h
    split at h
    · cases h
    · next inspection hinspection =>
      obtain ⟨hall, hget⟩ := ih h
      refine ⟨?_, fun name => ?_⟩
      · intro item' hitem'
        rcases List.mem_cons.mp hitem' with rfl | hitem'
        · exact ⟨inspection, hinspection⟩
        · exact hall item' hitem'
      · rcases hget name with ⟨item', hitem', hi⟩ | ⟨hnone, heq⟩
        · exact Or.inl ⟨item', List.mem_cons_of_mem _ hitem', hi⟩
        · rw [Dict.get?_set] at heq
          by_cases hname : name = item.filename
          · rw [if_pos hname] at heq
            exact Or.inl ⟨item, List.mem_cons_self .., hname.symm, inspection, hinspection, heq⟩
          · rw [if_neg hname] at heq
            refine Or.inr ⟨fun item' hitem' => ?_, heq⟩
            rcases List.mem_cons.mp hitem' with rfl | hitem'
            · exact Ne.symm hname
            · exact hnone item' hitem'

theorem inspectAll_of_ok (h : ∀ item ∈ items, ∃ i, inspectArchive L kept item.storagePath = .ok i) :
    ∀ d, ∃ d', inspectAll L kept items d = .ok d' := by
  induction items with
  | nil => exact fun d => ⟨d, rfl⟩
  | cons item rest ih =>
    intro d
    obtain ⟨i, hi⟩ := h item (List.mem_cons_self ..)
    unfold inspectAll
    rw [hi]
    exact ih (fun item' hitem' => h item' (List.mem_cons_of_mem _ hitem')) _

/-- Where names tell the kept files apart, every part has its inspection, and all of them pass
just if every part does. -/
theorem inspectAll_covers (h : inspectAll L kept items .empty = .ok d)
    (hapart : ∀ item ∈ items, ∀ item' ∈ items, item.filename = item'.filename →
      item.storagePath = item'.storagePath) :
    (∀ item ∈ items, ∃ i, inspectArchive L kept item.storagePath = .ok i
        ∧ d.get? item.filename = some i)
      ∧ (d.items.all (fun i => i.2.integrityPass) = true
        ↔ ∀ item ∈ items, ∃ i, inspectArchive L kept item.storagePath = .ok i
          ∧ i.integrityPass = true) := by
  obtain ⟨-, hget⟩ := inspectAll_ok h
  have hmentioned : ∀ item ∈ items, ∃ i, inspectArchive L kept item.storagePath = .ok i
      ∧ d.get? item.filename = some i := by
    intro item hitem
    rcases hget item.filename with ⟨item', hitem', hname, i, hi, hd⟩ | ⟨hnone, -⟩
    · exact ⟨i, by rw [hapart item hitem item' hitem' hname.symm, hi], hd⟩
    · exact absurd rfl (hnone item hitem)
  refine ⟨hmentioned, ?_⟩
  rw [List.all_eq_true]
  constructor
  · intro hall item hitem
    obtain ⟨i, hi, hd⟩ := hmentioned item hitem
    exact ⟨i, hi, hall _ (Dict.mem_items.mpr hd)⟩
  · rintro hall ⟨name, i⟩ hi
    have hd := Dict.mem_items.mp hi
    rcases hget name with ⟨item, hitem, -, i', hi', hd'⟩ | ⟨-, hnone⟩
    · rw [hd] at hd'
      cases hd'
      obtain ⟨j, hj, hpass⟩ := hall item hitem
      rw [hi'] at hj
      cases hj
      exact hpass
    · rw [hd] at hnone
      cases hnone

theorem ingest_ok {r : ManifestRecord}
    (h : ingestTakeoutParts L root files ps expected omissions = .ok r) :
    ∃ items kept d m path, keepAll L root files ps = .ok (items, kept)
      ∧ inspectAll L kept items .empty = .ok d
      ∧ buildMultipartManifest L items expected omissions = .ok m
      ∧ writeDerivedManifest L root kept m = .ok path
      ∧ r = manifestRecord items d m path omissions := by
  unfold ingestTakeoutParts at h
  split at h
  · cases h
  · next items kept hkeep =>
    split at h
    · cases h
    · next d hd =>
      split at h
      · cases h
      · next m hm =>
        split at h
        · cases h
        · next path hpath =>
          cases h
          exact ⟨items, kept, d, m, path, hkeep, hd, hm, hpath, rfl⟩

theorem ingest_of_ok
   
    {path : Path} (hkeep : keepAll L root files ps = .ok (items, kept))
    (hd : inspectAll L kept items .empty = .ok d)
    (hm : buildMultipartManifest L items expected omissions = .ok m)
    (hpath : writeDerivedManifest L root kept m = .ok path) :
    ingestTakeoutParts L root files ps expected omissions
      = .ok (manifestRecord items d m path omissions) := by
  unfold ingestTakeoutParts
  rw [hkeep]
  dsimp only
  rw [hd]
  dsimp only
  rw [hm]
  dsimp only
  rw [hpath]

end Runs

-- == identity

theorem byName_filter (parts : List StoredPart) (name : PyStr) :
    (byName parts).filter (fun s => decide (s.filename = name))
      = parts.filter fun s => decide (s.filename = name) :=
  Lib.sortedBy_filter _ parts fun _ hs => of_decide_eq_true hs

variable {expected : List PyStr} {omissions : Bool} {m : MultipartManifest}

theorem manifestOf_ok {L : Libraries} {preserved : List StoredPart}
   
    (h : manifestOf L preserved expected omissions = .ok m) : ∃ missing unexpected, ∃ text : Text,
      text.str = (manifestPayload (numbered 1 preserved) expected missing unexpected
        omissions).text .canonical
      ∧ m.manifestSha256 = L.sha256 text.utf8 := by
  unfold manifestOf at h
  dsimp only at h
  split at h
  · cases h
  · next text htext =>
    cases h
    exact ⟨_, _, text, encode_eq_ok.mp htext, rfl⟩

theorem numbered_json_inj {parts parts' : List StoredPart} {n : Nat}
    (h : (numbered n parts).map PartRecord.json = (numbered n parts').map PartRecord.json) :
    parts.map (fun s => (s.filename, s.sha256)) = parts'.map fun s => (s.filename, s.sha256) := by
  induction parts generalizing parts' n with
  | nil =>
    cases parts' with
    | nil => rfl
    | cons s rest => cases h
  | cons s rest ih =>
    cases parts' with
    | nil => cases h
    | cons s' rest' =>
      rw [numbered, numbered, List.map_cons, List.map_cons, List.cons.injEq] at h
      obtain ⟨hs, hrest⟩ := h
      simp only [PartRecord.json, Json.obj.injEq, List.cons.injEq, Prod.mk.injEq,
        Json.str.injEq, true_and] at hs
      rw [List.map_cons, List.map_cons, ih hrest, hs.1, hs.2.1]

theorem manifestOf_inj {L : Libraries} (hL : L.CollisionFree) {parts parts' : List StoredPart}
    {m' : MultipartManifest}
    (hm : manifestOf L parts expected omissions = .ok m)
    (hm' : manifestOf L parts' expected omissions = .ok m')
    (heq : m.manifestSha256 = m'.manifestSha256) :
    parts.map (fun s => (s.filename, s.sha256)) = parts'.map fun s => (s.filename, s.sha256) := by
  obtain ⟨missing, unexpected, text, htext, hsha⟩ := manifestOf_ok hm
  obtain ⟨missing', unexpected', text', htext', hsha'⟩ := manifestOf_ok hm'
  rw [hsha, hsha'] at heq
  have hsame : text = text' := utf8_injective (hL heq)
  rw [hsame, htext'] at htext
  have hpayload := text_injective htext
  simp only [manifestPayload, Json.obj.injEq, List.cons.injEq, Prod.mk.injEq, Json.arr.injEq,
    true_and] at hpayload
  exact (numbered_json_inj hpayload.2.1).symm

theorem buildMultipartManifest_ok {L : Libraries} {preserved : List PreservedRaw}
   
    (h : buildMultipartManifest L preserved expected omissions = .ok m) :
    ∃ names, safeNames expected = .ok names
      ∧ manifestOf L (byName (preserved.map PreservedRaw.toStoredPart)) names.eraseDups omissions
        = .ok m := by
  unfold buildMultipartManifest at h
  split at h
  · cases h
  · next names hnames => exact ⟨names, hnames, h⟩

-- == result

section Result

variable (L : Libraries) (root : PyStr) (files : Files) (ps : List Path) (expected : List PyStr)
  (omissions : Bool)

structure Covers (r : ManifestRecord) : Prop where
  integrity : ∀ items kept, keepAll L root files ps = .ok (items, kept) →
    (r.integrityStatus = "PASS" ↔ ∀ item ∈ items, ∃ i,
      inspectArchive L kept item.storagePath = .ok i ∧ i.integrityPass = true)
  mentioned : ∀ items kept, keepAll L root files ps = .ok (items, kept) → ∀ item ∈ items, ∃ i,
    inspectArchive L kept item.storagePath = .ok i ∧ r.inspections.get? item.filename = some i
  unordered : ∀ ps', ps.Perm ps' → ∃ r',
    ingestTakeoutParts L root files ps' expected omissions = .ok r'
      ∧ r'.rawObjectIdentity = r.rawObjectIdentity ∧ r'.contentSha256 = r.contentSha256
      ∧ r'.integrityStatus = r.integrityStatus
      ∧ r'.providerCompleteness = r.providerCompleteness

/-- Parts of one file name have one content. -/
def NamesApart : Prop :=
  ∀ p ∈ ps, ∀ p' ∈ ps, ∀ q q', part? L files p = some q → part? L files p' = some q' →
    q.name = q'.name → q.content = q'.content

end Result

section Ingestion

variable {L : Libraries} {root : PyStr} {files : Files} {ps : List Path} {expected : List PyStr}
  {omissions : Bool} {r : ManifestRecord}

theorem integrityStatus_pass {items : List PreservedRaw} {d : Dict PyStr ArchiveInspection}
    {m : MultipartManifest} {path : Path} :
    (manifestRecord items d m path omissions).integrityStatus = "PASS"
      ↔ d.items.all (fun i => i.2.integrityPass) = true := by
  unfold manifestRecord
  dsimp only
  cases d.items.all fun i => i.2.integrityPass with
  | true => exact iff_of_true rfl rfl
  | false => exact iff_of_false (by decide) Bool.false_ne_true

theorem keepAll_perm (hL : L.CollisionFree) (hfiles : ∀ p ∈ ps, IsFile L files p)
    {items : List PreservedRaw} {kept : Files}
    (hkeep : keepAll L root files ps = .ok (items, kept)) {ps' : List Path} (h : ps.Perm ps') :
    ∃ items' kept', keepAll L root files ps' = .ok (items', kept')
      ∧ (items.map PreservedRaw.toStoredPart).Perm (items'.map PreservedRaw.toStoredPart)
      ∧ (∀ n, kept ⟨manifestDir root, n⟩ = kept' ⟨manifestDir root, n⟩)
      ∧ ∀ item ∈ items, kept item.storagePath = kept' item.storagePath := by
  obtain ⟨hsome, hitems, rfl, hfits⟩ := keepAll_ok hL hkeep hfiles
  have hperm : (partsOf L files ps).Perm (partsOf L files ps') := h.filterMap _
  have hfits' : ∀ q ∈ partsOf L files ps', Fits L root files q :=
    fun q hq => hfits q (hperm.mem_iff.mpr hq)
  have hfiles' : ∀ p ∈ ps', IsFile L files p := fun p hp => hfiles p (h.mem_iff.mpr hp)
  obtain ⟨items', hkeep'⟩ := keepAll_of_fits hL hfiles'
    (fun p hp => hsome p (h.mem_iff.mpr hp)) hfits'
  obtain ⟨-, hitems', -, -⟩ := keepAll_ok hL hkeep' hfiles'
  refine ⟨items', _, hkeep', ?_, fun n => by rw [kept_manifest, kept_manifest], ?_⟩
  · rw [hitems, hitems']
    exact hperm.map _
  · intro item hitem
    have hmem := List.mem_map_of_mem (f := PreservedRaw.toStoredPart) hitem
    rw [hitems] at hmem
    obtain ⟨q, hq, hstored⟩ := List.mem_map.mp hmem
    have htarget : item.storagePath = q.target L root :=
      (congrArg StoredPart.storagePath hstored).symm
    rw [htarget, kept_target hL hfits q hq, kept_target hL hfits' q (hperm.mem_iff.mp hq)]

theorem stored_apart (hL : L.CollisionFree) (hfiles : ∀ p ∈ ps, IsFile L files p)
    {items : List PreservedRaw} {kept : Files}
    (hkeep : keepAll L root files ps = .ok (items, kept)) (hapart : NamesApart L files ps) :
    ∀ a ∈ items.map PreservedRaw.toStoredPart, ∀ b ∈ items.map PreservedRaw.toStoredPart,
      a.filename = b.filename → a = b := by
  obtain ⟨-, hitems, -, -⟩ := keepAll_ok hL hkeep hfiles
  rw [hitems]
  intro a ha b hb hname
  obtain ⟨q, hq, rfl⟩ := List.mem_map.mp ha
  obtain ⟨q', hq', rfl⟩ := List.mem_map.mp hb
  obtain ⟨p, hp, hpq⟩ := List.mem_filterMap.mp hq
  obtain ⟨p', hp', hpq'⟩ := List.mem_filterMap.mp hq'
  have hname' : q.name = q'.name := hname
  have hcontent := hapart p hp p' hp' q q' hpq hpq' hname'
  rw [Part.stored, Part.stored, hname', hcontent]

theorem covers_of_apart (hL : L.CollisionFree) (hfiles : ∀ p ∈ ps, IsFile L files p)
    (h : ingestTakeoutParts L root files ps expected omissions = .ok r)
    (hapart : NamesApart L files ps) : Covers L root files ps expected omissions r := by
  obtain ⟨items, kept, d, m, path, hkeep, hd, hm, hpath, rfl⟩ := ingest_ok h
  have hstored := stored_apart hL hfiles hkeep hapart
  have hpaths : ∀ item ∈ items, ∀ item' ∈ items, item.filename = item'.filename →
      item.storagePath = item'.storagePath := fun item hitem item' hitem' hname =>
    congrArg StoredPart.storagePath
      (hstored _ (List.mem_map_of_mem hitem) _ (List.mem_map_of_mem hitem') hname)
  obtain ⟨hmentioned, hpass⟩ := inspectAll_covers hd hpaths
  refine ⟨?_, ?_, ?_⟩
  · intro items' kept' hkeep'
    rw [hkeep] at hkeep'
    cases hkeep'
    rw [integrityStatus_pass, hpass]
  · intro items' kept' hkeep'
    rw [hkeep] at hkeep'
    cases hkeep'
    exact hmentioned
  · intro ps' hperm
    obtain ⟨items', kept', hkeep', hsame, hmanifest, htarget⟩ := keepAll_perm hL hfiles hkeep hperm
    -- what is kept of each part is inspected alike in both orders
    have hof : ∀ item' ∈ items', ∃ item ∈ items, item'.toStoredPart = item.toStoredPart := by
      intro item' hitem'
      have hmem := hsame.mem_iff.mpr (List.mem_map_of_mem hitem')
      obtain ⟨item, hitem, heq⟩ := List.mem_map.mp hmem
      exact ⟨item, hitem, heq.symm⟩
    have hinspect : ∀ item ∈ items, ∀ item' : PreservedRaw, item'.toStoredPart = item.toStoredPart →
        inspectArchive L kept' item'.storagePath = inspectArchive L kept item.storagePath := by
      intro item hitem item' heq
      rw [congrArg StoredPart.storagePath heq]
      unfold inspectArchive
      rw [htarget item hitem]
    have hinspected : ∀ item' ∈ items', ∃ i, inspectArchive L kept' item'.storagePath = .ok i := by
      intro item' hitem'
      obtain ⟨item, hitem, heq⟩ := hof item' hitem'
      obtain ⟨i, hi, -⟩ := hmentioned item hitem
      exact ⟨i, by rw [hinspect item hitem item' heq, hi]⟩
    obtain ⟨d', hd'⟩ := inspectAll_of_ok hinspected .empty
    have hsorted : byName (items.map PreservedRaw.toStoredPart)
        = byName (items'.map PreservedRaw.toStoredPart) := Lib.sortedBy_eq_of_perm _ hsame hstored
    have hm' : buildMultipartManifest L items' expected omissions = .ok m := by
      rw [← hm, buildMultipartManifest, buildMultipartManifest, hsorted]
    have hpath' : writeDerivedManifest L root kept' m = .ok path := by
      rw [← hpath, writeDerivedManifest_congr hmanifest]
    have hpaths' : ∀ item ∈ items', ∀ item' ∈ items', item.filename = item'.filename →
        item.storagePath = item'.storagePath := by
      intro item₁ h₁ item₂ h₂ hname
      obtain ⟨x₁, hx₁, heq₁⟩ := hof item₁ h₁
      obtain ⟨x₂, hx₂, heq₂⟩ := hof item₂ h₂
      rw [heq₁, heq₂] at hname ⊢
      exact hpaths x₁ hx₁ x₂ hx₂ hname
    have hall : d'.items.all (fun i => i.2.integrityPass)
        = d.items.all fun i => i.2.integrityPass := by
      rw [Bool.eq_iff_iff, (inspectAll_covers hd' hpaths').2, hpass]
      constructor
      · intro hall item hitem
        obtain ⟨item', hitem', heq⟩ := List.mem_map.mp
          (hsame.mem_iff.mp (List.mem_map_of_mem hitem))
        obtain ⟨i, hi, hok⟩ := hall item' hitem'
        exact ⟨i, by rw [← hinspect item hitem item' heq, hi], hok⟩
      · intro hall item' hitem'
        obtain ⟨item, hitem, heq⟩ := hof item' hitem'
        obtain ⟨i, hi, hok⟩ := hall item hitem
        exact ⟨i, by rw [hinspect item hitem item' heq, hi], hok⟩
    refine ⟨_, ingest_of_ok hkeep' hd' hm' hpath', rfl, rfl, ?_, rfl⟩
    simp only [manifestRecord, hall]

theorem sha_of_orders (hL : L.CollisionFree) {p p' : Path} {rest : List Path} {q q' : Part}
    (hq : part? L files p = some q) (hq' : part? L files p' = some q') (hname : q.name = q'.name)
    (hfiles : ∀ x ∈ p :: p' :: rest, IsFile L files x) {r r' : ManifestRecord}
    (h : ingestTakeoutParts L root files (p :: p' :: rest) expected omissions = .ok r)
    (h' : ingestTakeoutParts L root files (p' :: p :: rest) expected omissions = .ok r')
    (heq : r.contentSha256 = r'.contentSha256) : q.content = q'.content := by
  obtain ⟨items, kept, d, m, path, hkeep, -, hm, -, rfl⟩ := ingest_ok h
  obtain ⟨items', kept', d', m', path', hkeep', -, hm', -, rfl⟩ := ingest_ok h'
  obtain ⟨-, hitems, -, -⟩ := keepAll_ok hL hkeep hfiles
  obtain ⟨-, hitems', -, -⟩ := keepAll_ok hL hkeep' fun x hx =>
    hfiles x ((List.Perm.swap p p' rest).mem_iff.mp hx)
  obtain ⟨names, hnames, hm⟩ := buildMultipartManifest_ok hm
  obtain ⟨names', hnames', hm'⟩ := buildMultipartManifest_ok hm'
  rw [hnames] at hnames'
  cases hnames'
  have hlisted := manifestOf_inj hL hm hm' heq
  have hparts : partsOf L files (p :: p' :: rest) = q :: q' :: partsOf L files rest := by
    rw [partsOf, List.filterMap_cons_some hq, List.filterMap_cons_some hq']
    rfl
  have hparts' : partsOf L files (p' :: p :: rest) = q' :: q :: partsOf L files rest := by
    rw [partsOf, List.filterMap_cons_some hq', List.filterMap_cons_some hq]
    rfl
  -- the parts of this name are listed in the order they came
  have hfilter := congrArg (List.filter fun s => decide (s.1 = q.name)) hlisted
  rw [List.filter_map, List.filter_map] at hfilter
  simp only [Function.comp_def, byName_filter, hitems, hitems', hparts, hparts', List.map_cons,
    Part.stored, hname, List.filter_cons, decide_true, if_true, List.cons.injEq, Prod.mk.injEq,
    true_and] at hfilter
  exact hL hfilter.1

theorem apart_of_covers (hL : L.CollisionFree) (hfiles : ∀ p ∈ ps, IsFile L files p)
    (h : Covers L root files ps expected omissions r) : NamesApart L files ps := by
  intro p hp p' hp' q q' hq hq' hname
  by_cases hpp : p = p'
  · subst hpp
    rw [hq] at hq'
    cases hq'
    rfl
  · have hfirst : ps.Perm (p :: p' :: (ps.erase p).erase p') :=
      (List.perm_cons_erase hp).trans
        ((List.perm_cons_erase ((List.mem_erase_of_ne (Ne.symm hpp)).mpr hp')).cons p)
    obtain ⟨r₁, hr₁, -, hsha₁, -⟩ := h.unordered _ hfirst
    obtain ⟨r₂, hr₂, -, hsha₂, -⟩ := h.unordered _ (hfirst.trans (List.Perm.swap p' p _))
    exact sha_of_orders hL hq hq' hname (fun x hx => hfiles x (hfirst.mem_iff.mpr hx)) hr₁ hr₂
      (hsha₁.trans hsha₂.symm)

end Ingestion

/-- The record of a manifest covers every part, in any order of them, just if parts of one file
name have one content. -/
theorem covers_iff {L : Libraries} (hL : L.CollisionFree) (root : PyStr) (files : Files)
    (ps : List Path) (expected : List PyStr) (omissions : Bool)
    (hfiles : ∀ p ∈ ps, IsFile L files p) {r : ManifestRecord}
    (h : ingestTakeoutParts L root files ps expected omissions = .ok r) :
    Covers L root files ps expected omissions r ↔ NamesApart L files ps :=
  ⟨apart_of_covers hL hfiles, covers_of_apart hL hfiles h⟩

-- == encoding

section Encoding

variable {L : Libraries} {root : PyStr} {files : Files} {ps : List Path} {omissions : Bool}

def StoredPart.IsEncodable (s : StoredPart) : Prop :=
  Py.Encodable s.filename ∧ Py.Encodable s.sha256 ∧ Py.Encodable s.storagePath.str

theorem encodable_numbered {parts : List StoredPart} (h : ∀ s ∈ parts, s.IsEncodable) (n : Nat) :
    allEncodable ((numbered n parts).map PartRecord.json) = true := by
  induction parts generalizing n with
  | nil => rfl
  | cons s rest ih =>
    obtain ⟨⟨hname, hsha, hpath⟩, hrest⟩ := List.forall_mem_cons.mp h
    rw [numbered, List.map_cons, allEncodable, ih hrest, Bool.and_true]
    simp [PartRecord.json, Json.isEncodable, allEncodableMembers, encodable_py, hname, hsha, hpath]

theorem manifestOf_returns {parts : List StoredPart} (h : ∀ s ∈ parts, s.IsEncodable)
    (hsha : ∀ b, Py.Encodable (L.sha256 b)) :
    ∃ m, manifestOf L parts [] omissions = .ok m ∧ m.json.isEncodable = true := by
  have hparts := encodable_numbered h 1
  have hpayload : Encodable
      ((manifestPayload (numbered 1 parts) [] [] [] omissions).text .canonical) := by
    rw [encodable_text]
    simp [manifestPayload, names, Json.isEncodable, allEncodableMembers, allEncodable,
      encodable_py, hparts]
  have hencode : encode ((manifestPayload (numbered 1 parts) [] [] [] omissions).text .canonical)
      = .ok ⟨_, hpayload⟩ := dif_pos hpayload
  have htake : ∀ b, Py.Encodable ((L.sha256 b).take 24) :=
    fun b c hc => hsha b c (List.mem_of_mem_take hc)
  unfold manifestOf
  simp only [List.filter_nil, if_true, hencode]
  refine ⟨_, rfl, ?_⟩
  simp [MultipartManifest.json, names, Json.isEncodable, allEncodableMembers, allEncodable,
    encodable_py, encodable_append, hparts, hsha, htake]

theorem ingest_returns {items : List PreservedRaw} {kept : Files}
    (hkeep : keepAll L root files ps = .ok (items, kept))
    (hinspect : ∀ item ∈ items, ∃ i, inspectArchive L kept item.storagePath = .ok i)
    (hparts : ∀ item ∈ items, item.toStoredPart.IsEncodable)
    (hsha : ∀ b, Py.Encodable (L.sha256 b)) (hnew : ∀ n, kept ⟨manifestDir root, n⟩ = none) :
    ∃ r, ingestTakeoutParts L root files ps [] omissions = .ok r := by
  obtain ⟨d, hd⟩ := inspectAll_of_ok hinspect .empty
  have hsorted : ∀ s ∈ byName (items.map PreservedRaw.toStoredPart), s.IsEncodable := by
    intro s hs
    obtain ⟨item, hitem, rfl⟩ := List.mem_map.mp ((Lib.mem_sortedBy _).mp hs)
    exact hparts item hitem
  obtain ⟨m, hm, hjson⟩ : ∃ m, buildMultipartManifest L items [] omissions = .ok m
      ∧ m.json.isEncodable = true := manifestOf_returns hsorted hsha
  have hserialized : Py.Encodable (m.json.text .canonical ++ [10]) :=
    encodable_append.mpr ⟨(encodable_text _).mpr hjson, by decide⟩
  have hpath : writeDerivedManifest L root kept m
      = .ok ⟨manifestDir root, m.manifestSha256 ++ py ".json"⟩ := by
    unfold writeDerivedManifest
    dsimp only
    rw [hnew]
    exact if_pos hserialized
  exact ⟨_, ingest_of_ok hkeep hd hm hpath⟩

end Encoding

-- == parts of one name

namespace Sample

def libraries : Libraries where
  resolve := some
  sha256 b := b.data.toList.map UInt8.toNat
  isZip _ := false
  zip _ := .ok (none, [])
  isTar _ := .ok true
  tar _ := .ok []
  lower s := s
  readText _ := none

theorem collisionFree : libraries.CollisionFree := by
  intro a b h
  have hlist : a.data.toList = b.data.toList :=
    List.map_injective_iff.mpr (fun x y hxy => UInt8.toNat_inj.mp hxy) h
  cases a
  cases b
  exact congrArg ByteArray.mk (Array.toList_inj.mp hlist)

/-- Two files of one name, and one of another. -/
def files : Files := fun p =>
  if p = ⟨[97], [120]⟩ then some ⟨#[1]⟩
  else if p = ⟨[98], [120]⟩ then some ⟨#[2]⟩
  else if p = ⟨[98], [121]⟩ then some ⟨#[3]⟩
  else none

def twoNames : List Path := [⟨[97], [120]⟩, ⟨[98], [121]⟩]

def oneName : List Path := [⟨[97], [120]⟩, ⟨[98], [120]⟩]

theorem isFile_twoNames : ∀ p ∈ twoNames, IsFile libraries files p := by
  intro p hp
  rcases List.mem_cons.mp hp with rfl | hp
  · exact ⟨_, _, rfl, rfl⟩
  · rw [List.mem_singleton.mp hp]
    exact ⟨_, _, rfl, rfl⟩

theorem isFile_oneName : ∀ p ∈ oneName, IsFile libraries files p := by
  intro p hp
  rcases List.mem_cons.mp hp with rfl | hp
  · exact ⟨_, _, rfl, rfl⟩
  · rw [List.mem_singleton.mp hp]
    exact ⟨_, _, rfl, rfl⟩

theorem encodable_sha (b : ByteArray) : Py.Encodable (libraries.sha256 b) := by
  intro c hc
  obtain ⟨x, -, rfl⟩ := List.mem_map.mp hc
  have hx := x.toNat_lt
  simp only [isScalar, decide_eq_true_eq]
  omega

theorem files_none {p : Path} (h : 1 < p.dir.length) : files p = none := by
  have hne : ∀ q : Path, q.dir.length = 1 → p ≠ q := by
    rintro q hq rfl
    omega
  rw [files, if_neg (hne _ rfl), if_neg (hne _ rfl), if_neg (hne _ rfl)]

theorem inspected_ok (kept : Files) (p : Path) : ∃ i, inspectArchive libraries kept p = .ok i := by
  unfold inspectArchive
  split
  · exact ⟨_, rfl⟩
  · exact ⟨_, rfl⟩

theorem ingested {ps : List Path} (hfiles : ∀ p ∈ ps, IsFile libraries files p)
    (hsome : ∀ p ∈ ps, ∃ q, part? libraries files p = some q ∧ Py.Encodable q.name) :
    ∃ r, ingestTakeoutParts libraries [] files ps [] false = .ok r := by
  have hraw : 1 < (py "/raw/").length := by decide
  have hmanifest : 1 < (manifestDir []).length := by decide
  have hfits : ∀ q ∈ partsOf libraries files ps, Fits libraries [] files q := by
    intro q _ b hb
    have hlong : 1 < (q.target libraries []).dir.length := by
      simp only [Part.target, Part.stored, rawDir, List.nil_append, List.length_append]
      omega
    rw [files_none hlong] at hb
    cases hb
  have hparts : ∀ p ∈ ps, (part? libraries files p).isSome = true := by
    intro p hp
    obtain ⟨q, hq, -⟩ := hsome p hp
    rw [hq]
    rfl
  obtain ⟨items, hkeep⟩ := keepAll_of_fits collisionFree hfiles hparts hfits
  obtain ⟨-, hitems, -, -⟩ := keepAll_ok collisionFree hkeep hfiles
  refine ingest_returns hkeep (fun item _ => inspected_ok _ _) (fun item hitem => ?_) encodable_sha
    fun n => by rw [kept_manifest, files_none hmanifest]
  have hmem := List.mem_map_of_mem (f := PreservedRaw.toStoredPart) hitem
  rw [hitems] at hmem
  obtain ⟨q, hq, hstored⟩ := List.mem_map.mp hmem
  obtain ⟨p, hp, hpq⟩ := List.mem_filterMap.mp hq
  obtain ⟨q', hq', hname⟩ := hsome p hp
  rw [hpq] at hq'
  cases hq'
  rw [← hstored]
  have hdir : Py.Encodable (rawDir [] (libraries.sha256 q.content)) :=
    encodable_append.mpr ⟨encodable_append.mpr ⟨encodable_nil, encodable_py _⟩, encodable_sha _⟩
  have hleaf : Py.Encodable ([47] ++ q.name) := encodable_append.mpr ⟨by decide, hname⟩
  exact ⟨hname, encodable_sha _, encodable_append.mpr ⟨hdir, hleaf⟩⟩

end Sample

theorem covers_twoNames : ∃ r,
    ingestTakeoutParts Sample.libraries [] Sample.files Sample.twoNames [] false = .ok r
      ∧ Covers Sample.libraries [] Sample.files Sample.twoNames [] false r := by
  have hsome : ∀ p ∈ Sample.twoNames, ∃ q, part? Sample.libraries Sample.files p = some q
      ∧ Py.Encodable q.name := by
    intro p hp
    rcases List.mem_cons.mp hp with rfl | hp
    · exact ⟨⟨[120], ⟨#[1]⟩⟩, rfl, by decide⟩
    · rw [List.mem_singleton.mp hp]
      exact ⟨⟨[121], ⟨#[3]⟩⟩, rfl, by decide⟩
  obtain ⟨r, hr⟩ := Sample.ingested Sample.isFile_twoNames hsome
  refine ⟨r, hr, (covers_iff Sample.collisionFree [] Sample.files Sample.twoNames [] false
    Sample.isFile_twoNames hr).mpr ?_⟩
  have hpart : ∀ p ∈ Sample.twoNames, ∀ q, part? Sample.libraries Sample.files p = some q →
      q = ⟨[120], ⟨#[1]⟩⟩ ∨ q = ⟨[121], ⟨#[3]⟩⟩ := by
    intro p hp q hq
    rcases List.mem_cons.mp hp with rfl | hp
    · exact Or.inl (Option.some_inj.mp (hq.symm.trans rfl))
    · rw [List.mem_singleton.mp hp] at hq
      exact Or.inr (Option.some_inj.mp (hq.symm.trans rfl))
  intro p hp p' hp' q q' hq hq' hname
  rcases hpart p hp q hq with rfl | rfl <;> rcases hpart p' hp' q' hq' with rfl | rfl
  · rfl
  · exact absurd hname (by decide)
  · exact absurd hname (by decide)
  · rfl

/-- Parts of one name in two directories are summarised by one of them. -/
theorem covers_oneName : ¬ ∀ (L : Libraries), L.CollisionFree → ∀ (root : PyStr) (files : Files)
    (ps : List Path) (expected : List PyStr) (omissions : Bool), (∀ p ∈ ps, IsFile L files p) → ∀ r,
    ingestTakeoutParts L root files ps expected omissions = .ok r →
      Covers L root files ps expected omissions r := by
  intro hall
  have hsome : ∀ p ∈ Sample.oneName, ∃ q, part? Sample.libraries Sample.files p = some q
      ∧ Py.Encodable q.name := by
    intro p hp
    rcases List.mem_cons.mp hp with rfl | hp
    · exact ⟨⟨[120], ⟨#[1]⟩⟩, rfl, by decide⟩
    · rw [List.mem_singleton.mp hp]
      exact ⟨⟨[120], ⟨#[2]⟩⟩, rfl, by decide⟩
  obtain ⟨r, hr⟩ := Sample.ingested Sample.isFile_oneName hsome
  have hcovers := hall _ Sample.collisionFree [] Sample.files Sample.oneName [] false
    Sample.isFile_oneName r hr
  have hsame : (⟨#[1]⟩ : ByteArray) = ⟨#[2]⟩ :=
    apart_of_covers Sample.collisionFree Sample.isFile_oneName hcovers
      ⟨[97], [120]⟩ (List.mem_cons_self ..) ⟨[98], [120]⟩ (by decide) ⟨[120], ⟨#[1]⟩⟩
      ⟨[120], ⟨#[2]⟩⟩ rfl rfl rfl
  exact absurd hsame (by decide)

end Centinal26.Takeout
