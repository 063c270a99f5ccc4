import CaManager.Library.Base64
import CaManager.Store.CsrScope
import CaManager.Store.SubjectFields
import Mathlib.Logic.Function.Basic

/-!
# Files of certificates

Each row has a file for its certificate, one for its request and one for its key. Their names are
made of the common name, with everything that a file name should not have replaced, and of the
first eight characters of the reference. Many names have the same slug, and references that agree
so far are made by more than one writer, so that two rows may share their files. Deleting a row
also removes the files that an older version named after the whole reference.
-/

namespace CaManager

open Library FileNames

/-- `unicodedata`: the compatibility decomposition of a text. -/
class NormalizationLibrary extends ScriptLibrary where
  nfkd : String → String

def collapseHyphens : List Char → List Char
  | [] => []
  | c :: cs =>
    if c = '-' ∧ cs.head? = some '-' then collapseHyphens cs else c :: collapseHyphens cs

theorem mem_of_mem_collapseHyphens {cs : List Char} {c : Char} (h : c ∈ collapseHyphens cs) :
    c ∈ cs := by
  induction cs with
  | nil => cases h
  | cons d cs ih =>
    rw [collapseHyphens] at h
    split_ifs at h
    · exact List.mem_cons_of_mem _ (ih h)
    · rcases List.mem_cons.mp h with rfl | h
      · exact List.mem_cons_self
      · exact List.mem_cons_of_mem _ (ih h)

section Slugs

variable [NormalizationLibrary]

def isSlugChar (c : Char) : Bool := isWordChar c || c = '.' || c = '-'

/-- `slugify_cn` -/
def slugifyCn (cn : String) : String :=
  if cn = "" then "unknown"
  else
    let replaced := (NormalizationLibrary.nfkd cn).toList.map fun c =>
      if isSlugChar c then c else '-'
    let stripped := ((collapseHyphens replaced).dropWhile (· = '-')).rdropWhile (· = '-')
    let s := stripped.take 64
    if s = [] then "unknown" else String.ofList s

instance : FileNaming where
  slugifyCn := slugifyCn

end Slugs

inductive FileKind
  | crt
  | csr
  | key
  deriving Repr, DecidableEq

def FileKind.path (name : String) : FileKind → FilePath
  | crt => (.certs, name ++ ".crt")
  | csr => (.certs, name ++ ".csr")
  | key => (.keys, "cert_" ++ name ++ ".key")

theorem FileKind.path_inj {kind kind' : FileKind} {name name' : String} :
    kind.path name = kind'.path name' ↔ kind = kind' ∧ name = name' := by
  -- the endings are of the same length
  have hends : name ++ ".crt" ≠ name' ++ ".csr" ∧ name ++ ".csr" ≠ name' ++ ".crt" := by
    constructor
    · intro heq
      have hchars := congrArg String.toList heq
      rw [String.toList_append, String.toList_append] at hchars
      exact absurd (List.append_inj' hchars (by decide)).2 (by decide)
    · intro heq
      have hchars := congrArg String.toList heq
      rw [String.toList_append, String.toList_append] at hchars
      exact absurd (List.append_inj' hchars (by decide)).2 (by decide)
  cases kind with
  | crt =>
    cases kind' with
    | crt => simp [FileKind.path]
    | csr => simp [FileKind.path, hends.1]
    | key => simp [FileKind.path]
  | csr =>
    cases kind' with
    | crt => simp [FileKind.path, hends.2]
    | csr => simp [FileKind.path]
    | key => simp [FileKind.path]
  | key =>
    cases kind' with
    | crt => simp [FileKind.path]
    | csr => simp [FileKind.path]
    | key => simp [FileKind.path]

namespace FileNames

variable [FileNaming]

/-- The name of the files of a row: the slug and the beginning of the reference. -/
def fileStem (row : Certificate) : String :=
  FileNaming.slugifyCn (commonName row) ++ "-" ++
    if row.refid = "" then "norefid" else (row.refid.take 8).toString

omit [FileNaming] in
theorem commonName_congr {row row' : Certificate} (hsubject : row.subject = row'.subject)
    (hdescr : row.descr = row'.descr) : commonName row = commonName row' := by
  rw [commonName, commonName, hsubject, hdescr]

theorem fileStem_congr {row row' : Certificate} (hname : commonName row = commonName row')
    (hrefid : row.refid ≠ "") (hrefid' : row'.refid ≠ "")
    (hshort : (row.refid.take 8).toString = (row'.refid.take 8).toString) :
    fileStem row = fileStem row' := by
  rw [fileStem, fileStem, hname, if_neg hrefid, if_neg hrefid', hshort]

theorem certFilename_eq (row : Certificate) (ext : String) :
    certFilename row.refid (commonName row) ext = fileStem row ++ ("." ++ ext) := by
  rw [← String.append_assoc]
  rfl

theorem ofCertificate_eq (row : Certificate) : ofCertificate row =
    [FileKind.crt.path row.refid, FileKind.csr.path row.refid, FileKind.key.path row.refid,
      FileKind.crt.path (fileStem row), FileKind.csr.path (fileStem row),
      FileKind.key.path (fileStem row)] := by
  have hcrt : "." ++ "crt" = ".crt" := by decide
  have hcsr : "." ++ "csr" = ".csr" := by decide
  have hkey : "." ++ "key" = ".key" := by decide
  simp only [ofCertificate, certCertPath, certCsrPath, certKeyPath, certFilename_eq, FileKind.path,
    hcrt, hcsr, hkey, String.append_assoc]

def paths (row : Certificate) : List FilePath :=
  [certCertPath row, certCsrPath row, certKeyPath row]

theorem paths_eq (row : Certificate) : paths row =
    [FileKind.crt.path (fileStem row), FileKind.csr.path (fileStem row),
      FileKind.key.path (fileStem row)] := by
  have hfiles := ofCertificate_eq row
  unfold ofCertificate at hfiles
  simp only [List.cons.injEq, and_true] at hfiles
  unfold paths
  rw [hfiles.2.2.2.1, hfiles.2.2.2.2.1, hfiles.2.2.2.2.2]

theorem paths_subset (row : Certificate) : paths row ⊆ ofCertificate row := by
  intro path hpath
  simp only [paths, List.mem_cons, List.not_mem_nil, or_false] at hpath
  rcases hpath with rfl | rfl | rfl
  · simp [ofCertificate]
  · simp [ofCertificate]
  · simp [ofCertificate]

end FileNames

abbrev Files (α : Type) := FilePath → Option α

/-- What is done to a file. A file is moved where it is there and would overwrite nothing. -/
inductive FileStep (α : Type)
  | write (path : FilePath) (contents : α)
  | writeMissing (path : FilePath) (contents : α)
  | unlink (path : FilePath)
  | rename (path path' : FilePath)

namespace FileStep

variable {α : Type}

def apply (files : Files α) : FileStep α → Files α
  | write path contents => Function.update files path (some contents)
  | writeMissing path contents =>
    if (files path).isSome then files else Function.update files path (some contents)
  | unlink path => Function.update files path none
  | rename path path' =>
    if (files path).isSome ∧ files path' = none then
      Function.update (Function.update files path' (files path)) path none
    else files

def touched : FileStep α → List FilePath
  | write path _ => [path]
  | writeMissing path _ => [path]
  | unlink path => [path]
  | rename path path' => [path, path']

def run (files : Files α) (steps : List (FileStep α)) : Files α := steps.foldl apply files

theorem apply_of_notMem {files : Files α} {step : FileStep α} {path : FilePath}
    (h : path ∉ step.touched) : step.apply files path = files path := by
  cases step with
  | write p contents => exact Function.update_of_ne (by simpa [touched] using h) _ _
  | writeMissing p contents =>
    simp only [apply]
    split_ifs
    · rfl
    · exact Function.update_of_ne (by simpa [touched] using h) _ _
  | unlink p => exact Function.update_of_ne (by simpa [touched] using h) _ _
  | rename p p' =>
    simp only [touched, List.mem_cons, List.not_mem_nil, or_false, not_or] at h
    simp only [apply]
    split_ifs
    · rw [Function.update_of_ne h.1, Function.update_of_ne h.2]
    · rfl

theorem run_of_notMem {files : Files α} {steps : List (FileStep α)} {path : FilePath}
    (h : ∀ step ∈ steps, path ∉ step.touched) : run files steps path = files path := by
  unfold run
  induction steps generalizing files with
  | nil => rfl
  | cons step steps ih =>
    rw [List.foldl_cons, ih fun s hs => h s (List.mem_cons_of_mem _ hs)]
    exact apply_of_notMem (h step List.mem_cons_self)

end FileStep

/-- What the services do to the files of a row: what they write is the certificate, the request or
the key that they have. -/
inductive FileOperation (α : Type)
  | createCertificate (crt key : α)
  | generateCsr (csr key : α)
  | importCertificate (crt : α) (key : Option α)
  | signCsr (crt : α)
  | restore (crt csr key : Option α)
  | regenerate (crt csr key : Option α)
  | deleteCertificate

namespace FileOperation

variable [FileNaming] {α : Type} (row : Certificate)

def steps : FileOperation α → List (FileStep α)
  | createCertificate crt key => [.write (certCertPath row) crt, .write (certKeyPath row) key]
  | generateCsr csr key => [.write (certCsrPath row) csr, .write (certKeyPath row) key]
  | importCertificate crt key =>
    .write (certCertPath row) crt :: (key.map (.write (certKeyPath row))).toList
  | signCsr crt => [.write (certCertPath row) crt]
  | restore crt csr key =>
    (crt.map (.write (certCertPath row))).toList ++ (csr.map (.write (certCsrPath row))).toList ++
      (key.map (.write (certKeyPath row))).toList
  | regenerate crt csr key =>
    [.rename (.certs, row.refid ++ ".crt") (certCertPath row),
      .rename (.certs, row.refid ++ ".csr") (certCsrPath row),
      .rename (.keys, "cert_" ++ row.refid ++ ".key") (certKeyPath row)] ++
    (crt.map (.writeMissing (certCertPath row))).toList ++
    (csr.map (.writeMissing (certCsrPath row))).toList ++
    (key.map (.writeMissing (certKeyPath row))).toList
  | deleteCertificate => (ofCertificate row).map .unlink

theorem touched_steps {op : FileOperation α} {step : FileStep α} (h : step ∈ op.steps row) :
    step.touched ⊆ ofCertificate row := by
  have hoptional : ∀ {contents : Option α} {write : α → FileStep α},
      step ∈ (contents.map write).toList → ∃ a, step = write a := by
    intro contents write hstep
    obtain ⟨a, -, rfl⟩ := Option.map_eq_some_iff.mp (Option.mem_toList.mp hstep)
    exact ⟨a, rfl⟩
  cases op with
  | createCertificate crt key =>
    simp only [steps, List.mem_cons, List.not_mem_nil, or_false] at h
    rcases h with rfl | rfl
    · simp [FileStep.touched, ofCertificate]
    · simp [FileStep.touched, ofCertificate]
  | generateCsr csr key =>
    simp only [steps, List.mem_cons, List.not_mem_nil, or_false] at h
    rcases h with rfl | rfl
    · simp [FileStep.touched, ofCertificate]
    · simp [FileStep.touched, ofCertificate]
  | importCertificate crt key =>
    simp only [steps, List.mem_cons] at h
    rcases h with rfl | h
    · simp [FileStep.touched, ofCertificate]
    · obtain ⟨a, rfl⟩ := hoptional h
      simp [FileStep.touched, ofCertificate]
  | signCsr crt =>
    simp only [steps, List.mem_singleton] at h
    rw [h]
    simp [FileStep.touched, ofCertificate]
  | restore crt csr key =>
    simp only [steps, List.mem_append] at h
    rcases h with (h | h) | h
    all_goals
      obtain ⟨a, rfl⟩ := hoptional h
      simp [FileStep.touched, ofCertificate]
  | regenerate crt csr key =>
    simp only [steps, List.mem_append, List.mem_cons, List.not_mem_nil, or_false] at h
    rcases h with (((rfl | rfl | rfl) | h) | h) | h
    · simp [FileStep.touched, ofCertificate]
    · simp [FileStep.touched, ofCertificate]
    · simp [FileStep.touched, ofCertificate]
    all_goals
      obtain ⟨a, rfl⟩ := hoptional h
      simp [FileStep.touched, ofCertificate]
  | deleteCertificate =>
    obtain ⟨path, hpath, rfl⟩ := List.mem_map.mp h
    simpa [FileStep.touched] using hpath

end FileOperation

section Pairs

variable [FileNaming] (a b : Certificate)

/-- The rows have different files, and nothing that is done to the files of the first, as far as
it gets, changes what is in those of the second. -/
structure Apart : Prop where
  crt : certCertPath a ≠ certCertPath b
  csr : certCsrPath a ≠ certCsrPath b
  key : certKeyPath a ≠ certKeyPath b
  spares : ∀ (op : FileOperation Bytes) (taken : List (FileStep Bytes)),
    taken.Sublist (op.steps a) → ∀ (files : Files Bytes), ∀ path ∈ paths b,
      FileStep.run files taken path = files path

variable {a b}

theorem disjoint_iff : (∀ path ∈ ofCertificate a, path ∉ paths b) ↔
    fileStem a ≠ fileStem b ∧ a.refid ≠ fileStem b := by
  rw [ofCertificate_eq, paths_eq]
  simp only [List.mem_cons, List.not_mem_nil, or_false, forall_eq_or_imp, forall_eq,
    FileKind.path_inj]
  tauto

end Pairs

section Deletion

def Disk.contents (d : Disk) : Files (Option X509) := fun path =>
  (d.files.find? fun f => f.1 = path).map Prod.snd

theorem Disk.contents_unlink (d : Disk) (path : FilePath) :
    (d.unlink path).contents = Function.update d.contents path none := by
  funext other
  unfold contents unlink
  rw [List.find?_filter]
  by_cases hother : other = path
  · subst hother
    rw [Function.update_self, List.find?_eq_none.mpr, Option.map_none]
    simp
  · rw [Function.update_of_ne hother]
    refine congrArg (Option.map Prod.snd) (congrArg (List.find? · d.files) ?_)
    funext f
    by_cases hf : f.1 = other
    · simp [hf, hother]
    · simp [hf]

theorem Disk.contents_unlinkAll (d : Disk) (names : List FilePath) :
    ∃ taken, taken.Sublist (names.map (FileStep.unlink (α := Option X509))) ∧
      (d.unlinkAll names).2.contents = FileStep.run d.contents taken := by
  induction names generalizing d with
  | nil => exact ⟨[], .slnil, rfl⟩
  | cons path names ih =>
    rw [unlinkAll, List.map_cons]
    split_ifs with hthere hlocked
    · exact ⟨[], List.nil_sublist _, rfl⟩
    · obtain ⟨taken, hsublist, hcontents⟩ := ih (d.unlink path)
      refine ⟨.unlink path :: taken, hsublist.cons_cons _, ?_⟩
      rw [hcontents, Disk.contents_unlink]
      rfl
    · obtain ⟨taken, hsublist, hcontents⟩ := ih d
      exact ⟨taken, hsublist.cons _, hcontents⟩

variable [FileNaming] {o : Office} {attempt : Attempt} {row row' : Certificate}
  {result : (Bool × Office) × Bool}

theorem contents_serviceDelete (hrow : o.store.certificates.get? attempt.id = some row)
    (h : SingleRoutes.serviceDelete o attempt = some result) :
    ∃ taken, taken.Sublist (FileOperation.deleteCertificate.steps row) ∧
      result.1.2.disk.contents = FileStep.run o.disk.contents taken := by
  obtain ⟨taken, hsublist, hcontents⟩ := o.disk.contents_unlinkAll (ofCertificate row)
  refine ⟨taken, hsublist, ?_⟩
  rw [← hcontents]
  unfold SingleRoutes.serviceDelete at h
  rw [hrow] at h
  dsimp only at h
  rcases hunlink : o.disk.unlinkAll (ofCertificate row) with ⟨ok, disk⟩
  rw [hunlink] at h
  cases ok with
  | false =>
    cases h
    rfl
  | true =>
    dsimp only at h
    split_ifs at h
    · cases h
      rfl
    · cases h
      rfl

end Deletion

section Sample

@[reducible] def asciiNames : NormalizationLibrary where
  isWord _ := false
  nfkd s := s

/-- Two rows of one name, imported with references that were drawn one after the other. -/
def siteRow (id : ℕ) (refid : String) : Certificate :=
  { id, refid, descr := "www.example.com", subject := some "CN=www.example.com" }

def twoSites : Office where
  store := { sampleStore with certificates :=
    ((∅ : Table Certificate).insert (siteRow 1 "5f3c2a1b")).insert (siteRow 2 "6a0d9e4f") }

@[reducible] def oneSlug : FileNaming := ⟨fun _ => "www"⟩

theorem fileStem_twoSites : let _ := oneSlug
    fileStem (siteRow 1 "5f3c2a1b") ≠ fileStem (siteRow 2 "6a0d9e4f") ∧
      (siteRow 1 "5f3c2a1b").refid ≠ fileStem (siteRow 2 "6a0d9e4f") := by
  decide +kernel

end Sample

end CaManager
