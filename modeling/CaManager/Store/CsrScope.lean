import CaManager.Store.BulkAgreement

/-!
# What may be deleted as a request

Requests and certificates are rows of one table, and a request is deleted by the service that
deletes certificates. Neither route that calls it asks whether the row that an identifier names is
a request that nobody has signed; and the service removes files by names that two rows can share.
What such a request leaves of everything that it should not touch is said here, with the rows that
depend on certificates: requests for approval, and the findings of scans.
-/

namespace CaManager

open Library

namespace Disk

/-- The files of a list that are removed: those that are there, up to the first one that is
locked. -/
def removable (d : Disk) (paths : List FilePath) : List FilePath :=
  (paths.filter d.exists?).takeWhile fun path => path ∉ d.locked

def Blocked (d : Disk) (paths : List FilePath) : Prop :=
  ∃ path ∈ paths, d.exists? path = true ∧ path ∈ d.locked

instance (d : Disk) (paths : List FilePath) : Decidable (d.Blocked paths) :=
  inferInstanceAs (Decidable (∃ path ∈ paths, _ ∧ _))

def without (d : Disk) (paths : List FilePath) : Disk :=
  { d with files := d.files.filter fun f => f.1 ∉ paths }

section Removal

variable {d : Disk} {path q : FilePath} {paths : List FilePath}

theorem takeWhile_filter_ne {p : FilePath → Bool} (hp : p path = true) (l : List FilePath) :
    (l.filter fun q => q ≠ path).takeWhile p = (l.takeWhile p).filter fun q => q ≠ path := by
  induction l with
  | nil => rfl
  | cons q l ih =>
    by_cases hq : q = path
    · subst hq
      simpa [List.takeWhile_cons_of_pos hp] using ih
    · cases hpq : p q <;> simp [hq, hpq] at ih ⊢
      exact ih

theorem exists?_unlink :
    (d.unlink path).exists? q = (d.exists? q && decide (q ≠ path)) := by
  rw [Bool.eq_iff_iff]
  simp only [unlink, exists?, List.any_eq_true, List.mem_filter, decide_eq_true_eq,
    Bool.and_eq_true]
  constructor
  · rintro ⟨f, ⟨hf, hne⟩, rfl⟩
    exact ⟨⟨f, hf, rfl⟩, hne⟩
  · rintro ⟨⟨f, hf, rfl⟩, hne⟩
    exact ⟨f, ⟨hf, hne⟩, rfl⟩

theorem mem_removable_unlink (hfree : path ∉ d.locked) :
    q ∈ (d.unlink path).removable paths ↔ q ∈ d.removable paths ∧ q ≠ path := by
  have hfilter : paths.filter (d.unlink path).exists? =
      (paths.filter d.exists?).filter fun q => q ≠ path := by
    rw [List.filter_filter]
    apply List.filter_congr
    intro q _
    rw [exists?_unlink, Bool.and_comm]
  rw [removable, hfilter, removable]
  change q ∈ ((paths.filter d.exists?).filter fun q => q ≠ path).takeWhile
    (fun q => q ∉ d.locked) ↔ _
  rw [takeWhile_filter_ne (by simpa using hfree), List.mem_filter, decide_eq_true_eq]

theorem blocked_unlink (hfree : path ∉ d.locked) :
    (d.unlink path).Blocked paths ↔ d.Blocked paths := by
  unfold Blocked
  simp only [exists?_unlink, Bool.and_eq_true, decide_eq_true_eq]
  constructor
  · rintro ⟨q, hq, ⟨hthere, _⟩, hlocked⟩
    exact ⟨q, hq, hthere, hlocked⟩
  · rintro ⟨q, hq, hthere, hlocked⟩
    refine ⟨q, hq, ⟨hthere, ?_⟩, hlocked⟩
    rintro rfl
    exact hfree hlocked

theorem unlinkAll_snd (d : Disk) (paths : List FilePath) :
    (d.unlinkAll paths).2 = d.without (d.removable paths) := by
  induction paths generalizing d with
  | nil => simp [unlinkAll, removable, without]
  | cons path paths ih =>
    rw [unlinkAll]
    by_cases hthere : d.exists? path = true
    · by_cases hlocked : path ∈ d.locked
      · simp [hthere, hlocked, removable, without]
      · have hcons : d.removable (path :: paths) = path :: d.removable paths := by
          simp [removable, hthere, hlocked]
        rw [if_pos hthere, if_neg hlocked, ih, hcons]
        have hfiles : (d.files.filter fun f => f.1 ≠ path).filter
              (fun f => f.1 ∉ (d.unlink path).removable paths) =
            d.files.filter fun f => f.1 ∉ path :: d.removable paths := by
          rw [List.filter_filter]
          apply List.filter_congr
          intro f _
          rw [Bool.eq_iff_iff]
          simp only [mem_removable_unlink hlocked, Bool.and_eq_true, decide_eq_true_eq,
            List.mem_cons]
          tauto
        exact congrArg (fun files => { d with files }) hfiles
    · have hsame : d.removable (path :: paths) = d.removable paths := by
        simp [removable, hthere]
      rw [if_neg hthere, ih, hsame]

theorem unlinkAll_fst (d : Disk) (paths : List FilePath) :
    (d.unlinkAll paths).1 = true ↔ ¬d.Blocked paths := by
  induction paths generalizing d with
  | nil => simp [unlinkAll, Blocked]
  | cons path paths ih =>
    rw [unlinkAll]
    by_cases hthere : d.exists? path = true
    · by_cases hlocked : path ∈ d.locked
      · have hblocked : d.Blocked (path :: paths) := ⟨path, List.mem_cons_self .., hthere, hlocked⟩
        simp [hthere, hlocked, hblocked]
      · rw [if_pos hthere, if_neg hlocked, ih, blocked_unlink hlocked]
        simp [Blocked, hlocked]
    · rw [if_neg hthere, ih]
      simp [Blocked, hthere]

end Removal

end Disk

namespace CsrScope

/-- A finding of a scan, which may name a certificate. -/
structure DiscoveredReference where
  id : ℕ
  ucmCertificateId : Option ℕ
  deriving Repr, DecidableEq

structure Site where
  office : Office
  discovered : List DiscoveredReference := []
  deriving DecidableEq

def Site.rows (s : Site) : Table Certificate := s.office.store.certificates

def Site.disk (s : Site) : Disk := s.office.disk

def forget (certId : ℕ) (r : DiscoveredReference) : DiscoveredReference :=
  if r.ucmCertificateId = some certId then { r with ucmCertificateId := none } else r

section Routes

variable [FileNaming]

/-- A call of `CertificateService.delete_certificate`: whether it deletes the row, the state after
it, and whether the session answers afterwards. -/
def visit (s : Site) (a : Attempt) : (Bool × Site) × Bool :=
  match SingleRoutes.serviceDelete s.office a with
  | none => ((false, s), true)
  | some ((deleted, office), answers) =>
    ((deleted, { office, discovered := if deleted then s.discovered.map (forget a.id)
      else s.discovered }), answers)

/-- A request that is authorised to delete requests. -/
inductive Request
  | deleteCsr (attempt : Attempt)
  | bulkDeleteCsrs (attempts : List Attempt)

def Request.attempts : Request → List Attempt
  | deleteCsr a => [a]
  | bulkDeleteCsrs as => as

def Request.ids (r : Request) : List ℕ := r.attempts.map Attempt.id

def Request.serve (s : Site) : Request → Site
  | deleteCsr a => (visit s a).1.2
  | bulkDeleteCsrs as => afterBatch visit s as

end Routes

def isUnsigned (row : Certificate) : Bool := row.csr.isSome && row.crt.isNone

def Target (ids : List ℕ) (row : Certificate) : Prop := row.id ∈ ids ∧ isUnsigned row = true

instance (ids : List ℕ) (row : Certificate) : Decidable (Target ids row) :=
  inferInstanceAs (Decidable (_ ∧ _))

def OfAuthority (path : FilePath) : Prop := path.1 = .keys ∧ ∃ name, path.2 = "ca_" ++ name

/-- Other tables are left alone, nothing is added or changed, and authorities keep their files. -/
structure Shrinks (s t : Site) : Prop where
  rows : ∀ row ∈ t.rows, row ∈ s.rows
  files : ∀ f ∈ t.disk.files, f ∈ s.disk.files
  authorities : ∀ f ∈ s.disk.files, OfAuthority f.1 → f ∈ t.disk.files
  rest : t.office = { s.office with
    store := { s.office.store with certificates := t.rows }, disk := t.disk }
  unnamed : ∀ r ∈ s.discovered, r.ucmCertificateId = none → r ∈ t.discovered

/-- The rows that may not be deleted are left, with their files and the findings that name them. -/
structure Spares [FileNaming] (ids : List ℕ) (s t : Site) : Prop where
  rows : ∀ row ∈ s.rows, ¬Target ids row → row ∈ t.rows
  files : ∀ row ∈ s.rows, ¬Target ids row → ∀ f ∈ s.disk.files,
    f.1 ∈ FileNames.ofCertificate row → f ∈ t.disk.files
  discovered : ∀ r ∈ s.discovered, (∀ row ∈ s.rows, Target ids row →
    r.ucmCertificateId ≠ some row.id) → r ∈ t.discovered

/-- A deletion is in scope. If the row may be deleted, the files that are removed are not those of a
row that may not. If it may not, nothing can be removed: the first of its files that is there is
locked, or it has no files and the commit fails. -/
def InScope [FileNaming] (ids : List ℕ) (s : Site) (a : Attempt) : Prop :=
  ∀ row, s.rows.get? a.id = some row →
    if Target ids row then
      ∀ row' ∈ s.rows, ¬Target ids row' →
        ∀ path ∈ s.disk.removable (FileNames.ofCertificate row), path ∉ FileNames.ofCertificate row'
    else
      s.disk.removable (FileNames.ofCertificate row) = [] ∧
        (s.disk.Blocked (FileNames.ofCertificate row) ∨ a.commits = false)

theorem Shrinks.refl (s : Site) : Shrinks s s :=
  ⟨fun _ h => h, fun _ h => h, fun _ h _ => h, rfl, fun _ h _ => h⟩

theorem Shrinks.trans {s t u : Site} (h : Shrinks s t) (h' : Shrinks t u) : Shrinks s u := by
  refine ⟨?_, ?_, ?_, ?_, ?_⟩
  · exact fun row hrow => h.rows row (h'.rows row hrow)
  · exact fun f hf => h.files f (h'.files f hf)
  · exact fun f hf hca => h'.authorities f (h.authorities f hf hca) hca
  · rw [h'.rest, h.rest]
  · exact fun r hr hnone => h'.unnamed r (h.unnamed r hr hnone) hnone

section Visits

variable [FileNaming] {ids : List ℕ} {s t : Site} {a : Attempt} {row : Certificate}

def Site.cleared (s : Site) (row : Certificate) : Site :=
  { s with office := { s.office with
      disk := s.disk.without (s.disk.removable (FileNames.ofCertificate row)) } }

def Site.deleted (s : Site) (row : Certificate) (certId : ℕ) : Site :=
  { office := { s.office with
      store := { s.office.store with certificates := s.rows.delete certId }
      disk := s.disk.without (s.disk.removable (FileNames.ofCertificate row)) }
    discovered := s.discovered.map (forget certId) }

theorem visit_of_none (hrow : s.rows.get? a.id = none) : (visit s a).1.2 = s := by
  have hnone : SingleRoutes.serviceDelete s.office a = none := by
    unfold SingleRoutes.serviceDelete
    rw [show s.office.store.certificates.get? a.id = none from hrow]
  rw [visit, hnone]

theorem visit_of_some (hrow : s.rows.get? a.id = some row) :
    (visit s a).1.2 =
      if ¬s.disk.Blocked (FileNames.ofCertificate row) ∧ a.commits = true then s.deleted row a.id
      else s.cleared row := by
  have hfst := Disk.unlinkAll_fst s.disk (FileNames.ofCertificate row)
  have hsnd := Disk.unlinkAll_snd s.disk (FileNames.ofCertificate row)
  unfold visit SingleRoutes.serviceDelete
  rw [show s.office.store.certificates.get? a.id = some row from hrow]
  dsimp only
  rw [show s.office.disk = s.disk from rfl]
  rcases hunlink : s.disk.unlinkAll (FileNames.ofCertificate row) with ⟨ok, disk⟩
  rw [hunlink] at hfst hsnd
  simp only at hfst hsnd
  subst hsnd
  cases ok with
  | false =>
    have hblocked : s.disk.Blocked (FileNames.ofCertificate row) := by
      simpa using hfst
    rw [if_neg fun h => h.1 hblocked]
    rfl
  | true =>
    rw [eq_self, true_iff] at hfst
    cases hcommits : a.commits with
    | false =>
      rw [if_neg (by simp)]
      rfl
    | true =>
      rw [if_pos ⟨hfst, rfl⟩]
      rfl

theorem mem_files_cleared {f : FilePath × Option X509} :
    f ∈ (s.cleared row).disk.files ↔
      f ∈ s.disk.files ∧ f.1 ∉ s.disk.removable (FileNames.ofCertificate row) := by
  have hfiles : (s.cleared row).disk.files = s.disk.files.filter fun f =>
      f.1 ∉ s.disk.removable (FileNames.ofCertificate row) := rfl
  rw [hfiles, List.mem_filter, decide_eq_true_eq]

theorem mem_rows_deleted {certId : ℕ} {row' : Certificate} :
    row' ∈ (s.deleted row certId).rows ↔ row' ∈ s.rows ∧ row'.id ≠ certId :=
  Table.mem_delete

theorem mem_removable {path : FilePath}
    (h : path ∈ s.disk.removable (FileNames.ofCertificate row)) :
    path ∈ FileNames.ofCertificate row ∧ ∃ f ∈ s.disk.files, f.1 = path := by
  have hfilter := List.mem_filter.mp (List.takeWhile_subset _ h)
  exact ⟨hfilter.1, by simpa [Disk.exists?] using hfilter.2⟩

theorem not_ofAuthority {path : FilePath} (h : path ∈ FileNames.ofCertificate row) :
    ¬OfAuthority path := by
  rintro ⟨hdir, name, hname⟩
  simp only [FileNames.ofCertificate, FileNames.certCertPath, FileNames.certCsrPath,
    FileNames.certKeyPath, List.mem_cons, List.not_mem_nil, or_false] at h
  have hfirst : ∀ rest : String, "cert_" ++ rest ≠ "ca_" ++ name := by
    intro rest heq
    have hchars := congrArg String.toList heq
    simp at hchars
  rcases h with rfl | rfl | rfl | rfl | rfl | rfl
  · cases hdir
  · cases hdir
  · exact hfirst (row.refid ++ ".key") (by simpa [String.append_assoc] using hname)
  · cases hdir
  · cases hdir
  · exact hfirst _ hname

theorem shrinks_cleared (s : Site) (row : Certificate) : Shrinks s (s.cleared row) := by
  refine ⟨fun _ h => h, ?_, ?_, rfl, fun _ h _ => h⟩
  · exact fun f hf => (mem_files_cleared.mp hf).1
  · intro f hf hca
    exact mem_files_cleared.mpr ⟨hf, fun h => not_ofAuthority (mem_removable h).1 hca⟩

theorem shrinks_deleted (s : Site) (row : Certificate) (certId : ℕ) :
    Shrinks s (s.deleted row certId) := by
  have hcleared := shrinks_cleared s row
  refine ⟨?_, hcleared.files, hcleared.authorities, rfl, ?_⟩
  · exact fun row' hrow' => (mem_rows_deleted.mp hrow').1
  · intro r hr hnone
    exact List.mem_map.mpr ⟨r, hr, if_neg (by simp [hnone])⟩

theorem shrinks_visit (s : Site) (a : Attempt) : Shrinks s (visit s a).1.2 := by
  cases hrow : s.rows.get? a.id with
  | none =>
    rw [visit_of_none hrow]
    exact Shrinks.refl s
  | some row =>
    rw [visit_of_some hrow]
    split
    · exact shrinks_deleted s row a.id
    · exact shrinks_cleared s row

theorem mem_discovered_of_deleted {certId : ℕ} {r : DiscoveredReference}
    (h : r ∈ (s.deleted row certId).discovered) (hnamed : r.ucmCertificateId ≠ none) :
    r ∈ s.discovered := by
  obtain ⟨r', hr', hforget⟩ := List.mem_map.mp h
  unfold forget at hforget
  split at hforget
  · subst hforget
    exact absurd rfl hnamed
  · exact hforget ▸ hr'

theorem Spares.of_visit (hshrinks : Shrinks s t) (h : Spares ids s (visit t a).1.2) :
    Spares ids s t := by
  have hvisit := shrinks_visit t a
  refine ⟨?_, ?_, ?_⟩
  · exact fun row hrow hnot => hvisit.rows row (h.rows row hrow hnot)
  · exact fun row hrow hnot f hf hpath => hvisit.files f (h.files row hrow hnot f hf hpath)
  · intro r hr hnone
    have hmem := h.discovered r hr hnone
    by_cases hnamed : r.ucmCertificateId = none
    · exact hshrinks.unnamed r hr hnamed
    · cases hrow : t.rows.get? a.id with
      | none =>
        rw [visit_of_none hrow] at hmem
        exact hmem
      | some row =>
        rw [visit_of_some hrow] at hmem
        split at hmem
        · exact mem_discovered_of_deleted hmem hnamed
        · exact hmem

theorem removable_eq_nil_of_spares (hshrinks : Shrinks s t) (hrow : row ∈ t.rows)
    (hnot : ¬Target ids row) (h : Spares ids s (t.cleared row)) :
    t.disk.removable (FileNames.ofCertificate row) = [] := by
  apply List.eq_nil_iff_forall_not_mem.mpr
  intro path hpath
  obtain ⟨hmem, f, hf, rfl⟩ := mem_removable hpath
  have hleft := h.files row (hshrinks.rows row hrow) hnot f (hshrinks.files f hf) hmem
  exact (mem_files_cleared.mp hleft).2 hpath

theorem spares_visit_of_not_target (hshrinks : Shrinks s t) (hspares : Spares ids s t)
    (hrow : t.rows.get? a.id = some row) (hnot : ¬Target ids row) :
    Spares ids s (visit t a).1.2 ↔
      t.disk.removable (FileNames.ofCertificate row) = [] ∧
        (t.disk.Blocked (FileNames.ofCertificate row) ∨ a.commits = false) := by
  have hmem := Table.mem_of_get? hrow
  have hkey : row.id = a.id := Table.key_of_get? hrow
  rw [visit_of_some hrow]
  constructor
  · intro h
    split at h
    · -- the row itself is gone
      have hleft := h.rows row (hshrinks.rows row hmem) hnot
      exact absurd hkey (mem_rows_deleted.mp hleft).2
    next hkept =>
      refine ⟨removable_eq_nil_of_spares hshrinks hmem hnot h, ?_⟩
      by_cases hblocked : t.disk.Blocked (FileNames.ofCertificate row)
      · exact .inl hblocked
      · exact .inr (by simpa [hblocked] using hkept)
  · rintro ⟨hnil, hfails⟩
    rw [if_neg]
    · refine ⟨hspares.rows, ?_, hspares.discovered⟩
      intro row' hrow' hnot' f hf hpath
      refine mem_files_cleared.mpr ⟨hspares.files row' hrow' hnot' f hf hpath, ?_⟩
      rw [hnil]
      exact List.not_mem_nil
    · rintro ⟨hfree, hcommits⟩
      rcases hfails with hblocked | hraises
      · exact hfree hblocked
      · simp [hcommits] at hraises

/-- Deleting a row that may be deleted keeps the scope exactly if the files that are removed are
those of no row that may not. -/
theorem spares_visit_of_target (hshrinks : Shrinks s t) (hspares : Spares ids s t)
    (hrow : t.rows.get? a.id = some row) (htarget : Target ids row) :
    Spares ids s (visit t a).1.2 ↔
      ∀ row' ∈ t.rows, ¬Target ids row' →
        ∀ path ∈ t.disk.removable (FileNames.ofCertificate row),
          path ∉ FileNames.ofCertificate row' := by
  have hmem := Table.mem_of_get? hrow
  have hkey : row.id = a.id := Table.key_of_get? hrow
  have hfiles : (visit t a).1.2.disk.files = (t.cleared row).disk.files := by
    rw [visit_of_some hrow]
    split <;> rfl
  constructor
  · intro h row' hrow' hnot path hpath hmem'
    obtain ⟨_, f, hf, rfl⟩ := mem_removable hpath
    have hleft := h.files row' (hshrinks.rows row' hrow') hnot f (hshrinks.files f hf) hmem'
    rw [hfiles] at hleft
    exact (mem_files_cleared.mp hleft).2 hpath
  · intro h
    refine ⟨?_, ?_, ?_⟩
    · intro row' hrow' hnot
      have hleft := hspares.rows row' hrow' hnot
      rw [visit_of_some hrow]
      split
      · refine mem_rows_deleted.mpr ⟨hleft, fun heq => ?_⟩
        exact hnot (Table.eq_of_key_eq hleft hmem (heq.trans hkey.symm) ▸ htarget)
      · exact hleft
    · intro row' hrow' hnot f hf hpath
      rw [hfiles]
      refine mem_files_cleared.mpr ⟨hspares.files row' hrow' hnot f hf hpath, fun hgone => ?_⟩
      exact h row' (hspares.rows row' hrow' hnot) hnot f.1 hgone hpath
    · intro r hr hnamed
      have hleft := hspares.discovered r hr hnamed
      rw [visit_of_some hrow]
      split
      · refine List.mem_map.mpr ⟨r, hleft, if_neg ?_⟩
        exact hkey ▸ hnamed row (hshrinks.rows row hmem) htarget
      · exact hleft

theorem spares_visit_iff (hshrinks : Shrinks s t) (hspares : Spares ids s t) (a : Attempt) :
    Spares ids s (visit t a).1.2 ↔ InScope ids t a := by
  unfold InScope
  cases hrow : t.rows.get? a.id with
  | none =>
    rw [visit_of_none hrow]
    simpa using hspares
  | some row =>
    simp only [Option.some.injEq, forall_eq']
    split_ifs with htarget
    · exact spares_visit_of_target hshrinks hspares hrow htarget
    · exact spares_visit_of_not_target hshrinks hspares hrow htarget

theorem Spares.refl (ids : List ℕ) (s : Site) : Spares ids s s :=
  ⟨fun _ h _ => h, fun _ _ _ _ h _ => h, fun _ h _ => h⟩

theorem spares_serve_iff (s : Site) (r : Request) :
    Spares r.ids s (r.serve s) ↔ Visited visit (InScope r.ids) s r.attempts := by
  cases r with
  | deleteCsr a =>
    rw [Request.serve, Request.attempts, Visited,
      spares_visit_iff (Shrinks.refl s) (Spares.refl _ s)]
    exact (and_iff_left fun _ => trivial).symm
  | bulkDeleteCsrs as =>
    have hkeep : ∀ t a, Shrinks s t → Shrinks s (visit t a).1.2 :=
      fun t a h => h.trans (shrinks_visit t a)
    have hlost : ∀ t a, Shrinks s t → Spares (as.map Attempt.id) s (visit t a).1.2 →
        Spares (as.map Attempt.id) s t := fun _ _ h h' => h'.of_visit h
    have hstep : ∀ t a, Shrinks s t → Spares (as.map Attempt.id) s t →
        (Spares (as.map Attempt.id) s (visit t a).1.2 ↔ InScope (as.map Attempt.id) t a) :=
      fun _ a h h' => spares_visit_iff h h' a
    exact afterBatch_iff_visited hkeep hlost hstep (Shrinks.refl s) (Spares.refl _ s) as

theorem shrinks_serve (s : Site) (r : Request) : Shrinks s (r.serve s) := by
  cases r with
  | deleteCsr a => exact shrinks_visit s a
  | bulkDeleteCsrs as =>
    exact afterBatch_invariant (fun t a h => Shrinks.trans h (shrinks_visit t a))
      (Shrinks.refl s) as

end Visits

/-- A request to delete requests leaves everything but requests that it names and nobody has
signed, exactly if each deletion that it makes is in scope. -/
theorem csr_deletion_in_scope_iff [FileNaming] (s : Site) (r : Request) :
    (Shrinks s (r.serve s) ∧ Spares r.ids s (r.serve s)) ↔
      Visited visit (InScope r.ids) s r.attempts :=
  (and_iff_right (shrinks_serve s r)).trans (spares_serve_iff s r)

def issuedSite : Site := { office := BulkRequest.sampleOffice }

def deleteIssued : Request := .deleteCsr (BulkRequest.sampleAttempt 1 0 true)

/-- A certificate that has been issued is deleted by a request that may only delete requests. -/
theorem issued_certificate_deleted :
    let _ := BulkRequest.sampleNaming
    ¬(Shrinks issuedSite (deleteIssued.serve issuedSite) ∧
      Spares deleteIssued.ids issuedSite (deleteIssued.serve issuedSite)) := by
  intro _
  rintro ⟨_, hspares⟩
  have hgone : ∃ row ∈ issuedSite.rows.rows, ¬Target deleteIssued.ids row ∧
      row ∉ (deleteIssued.serve issuedSite).rows := by decide +kernel
  obtain ⟨row, hrow, hnot, hmissing⟩ := hgone
  exact hmissing (hspares.rows row hrow hnot)

end CsrScope

end CaManager
