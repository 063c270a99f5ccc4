import CaManager.Audit.Integrity

/-!
# Tampering with the audit log

A log that the service wrote is changed: columns of rows get other values, rows are deleted and
hashes are cleared, while the last row stays with its hash. Verification reports an error
exactly if the change deletes a row, clears a hash or alters the text under the hash of some
row. The name, the address and the agent are not in this text, and its bars do not tell the
columns apart.
-/

namespace CaManager

open Library

namespace Audit

/-- What may be done to a row that stays: other contents, and cleared hashes. -/
structure Altered (row row' : AuditLog) : Prop where
  id : row'.id = row.id
  prevHash : row'.prevHash = row.prevHash ∨ truthyText row'.prevHash = none
  entryHash : row'.entryHash = row.entryHash ∨ truthyText row'.entryHash = none

/-- The rows after the tampering. The last one stays, with its hash. -/
inductive Tampered : List AuditLog → List AuditLog → Prop
  | last {row row' : AuditLog} (h : Altered row row') (hhash : row'.entryHash = row.entryHash) :
    Tampered [row] [row']
  | alter {row row' : AuditLog} {rows rows' : List AuditLog} (h : Altered row row')
    (hrows : Tampered rows rows') : Tampered (row :: rows) (row' :: rows')
  | delete {row : AuditLog} {rows rows' : List AuditLog} (hrows : Tampered rows rows') :
    Tampered (row :: rows) rows'

/-- The tampering left the hashes and the text under them. -/
structure Same (row row' : AuditLog) : Prop where
  prevHash : row'.prevHash = row.prevHash
  entryHash : row'.entryHash = row.entryHash
  hashedText : row'.hashedText = row.hashedText

def Proper (hash : String) : Prop := hash ≠ "" ∧ '|' ∉ hash.toList

section Texts

theorem idText_injective {id id' : ℕ} (h : AuditLog.idText id = AuditLog.idText id') : id = id' := by
  have hdigits := String.ofList_injective h
  have hread := readUnsigned_toDigits (by decide : 1 < 10) (by decide) id
  rw [hdigits, readUnsigned_toDigits (by decide) (by decide)] at hread
  exact (Option.some.inj hread).symm

theorem bar_not_mem_idText (id : ℕ) : '|' ∉ (AuditLog.idText id).toList := by
  rw [AuditLog.idText, String.toList_ofList]
  intro hmem
  exact ne_of_mem_toDigits (by decide) (by decide) '|' (by decide) hmem rfl

theorem toList_bar : "|".toList = ['|'] := by decide

theorem id_eq_of_hashedText_eq {row row' : AuditLog} (h : row.hashedText = row'.hashedText) :
    row.id = row'.id := by
  have hlist := congrArg String.toList h
  simp only [AuditLog.hashedText, String.toList_append, toList_bar, List.append_assoc,
    List.singleton_append] at hlist
  have hids :=
    (eq_of_append_cons (bar_not_mem_idText row.id) (bar_not_mem_idText row'.id) hlist).1
  exact idText_injective (String.toList_injective hids)

theorem eq_of_text_eq {text text' hash hash' : String} (h : '|' ∉ hash.toList)
    (h' : '|' ∉ hash'.toList) (heq : text ++ "|" ++ hash = text' ++ "|" ++ hash') :
    text = text' ∧ hash = hash' := by
  have hlist := congrArg String.toList heq
  simp only [String.toList_append, toList_bar, List.append_assoc, List.singleton_append] at hlist
  obtain ⟨htext, hhash⟩ := eq_of_append_cons_last h h' hlist
  exact ⟨String.toList_injective htext, String.toList_injective hhash⟩

end Texts

theorem toList_zeroHash : zeroHash.toList = List.replicate 64 '0' := String.toList_ofList

theorem proper_zeroHash : Proper zeroHash := by
  constructor
  · decide
  · rw [toList_zeroHash]
    intro hmem
    exact absurd (List.eq_of_mem_replicate hmem) (by decide)

section Rows

theorem edited_of_tampered {rows rows' : List AuditLog} (h : Tampered rows rows') :
    Link.Edited AuditLog.id (rows.map link) (rows'.map link) := by
  have haltered : ∀ {row row' : AuditLog}, Altered row row' →
      Link.Altered AuditLog.id (link row) (link row') := by
    intro row row' h
    exact ⟨h.id, h.prevHash.imp_left (congrArg truthyText),
      h.entryHash.imp_left (congrArg truthyText)⟩
  induction h with
  | last h hhash => exact .last (haltered h) (congrArg truthyText hhash)
  | alter h _ ih => exact .keep (haltered h) ih
  | delete _ ih => exact .delete ih

theorem eq_some_of_truthyText {o : Option String} {s : String} (h : truthyText o = some s) :
    o = some s :=
  (Option.filter_eq_some_iff.mp h).1

theorem unseen_iff_same {row row' : AuditLog}
    (h : ∃ p hash, row.prevHash = some p ∧ p ≠ "" ∧ row.entryHash = some hash ∧ hash ≠ "") :
    Link.Unseen (fun row row' => row'.hashedText = row.hashedText) (link row) (link row') ↔
      Same row row' := by
  obtain ⟨p, hash, hp, hpne, hhash, hhashne⟩ := h
  constructor
  · intro hunseen
    have hprev : truthyText row'.prevHash = truthyText row.prevHash := hunseen.prev
    have hentry : truthyText row'.entryHash = truthyText row.entryHash := hunseen.hash
    rw [hp, truthyText_eq_self hpne] at hprev
    rw [hhash, truthyText_eq_self hhashne] at hentry
    exact ⟨(eq_some_of_truthyText hprev).trans hp.symm,
      (eq_some_of_truthyText hentry).trans hhash.symm, hunseen.body⟩
  · intro hsame
    exact ⟨congrArg truthyText hsame.prevHash, congrArg truthyText hsame.entryHash,
      hsame.hashedText⟩

theorem forall₂_unseen_iff {rows rows' : List AuditLog}
    (h : ∀ row ∈ rows, ∃ p hash, row.prevHash = some p ∧ p ≠ "" ∧ row.entryHash = some hash ∧
      hash ≠ "") :
    List.Forall₂ (Link.Unseen fun row row' => row'.hashedText = row.hashedText) (rows.map link)
      (rows'.map link) ↔ List.Forall₂ Same rows rows' := by
  rw [List.forall₂_map_left_iff, List.forall₂_map_right_iff]
  induction rows generalizing rows' with
  | nil => simp
  | cons row rows ih =>
    cases rows' with
    | nil => simp
    | cons row' rows' =>
      rw [List.forall₂_cons, List.forall₂_cons, unseen_iff_same (h row List.mem_cons_self),
        ih fun r hr => h r (List.mem_cons_of_mem row hr)]

end Rows

variable [HashLibrary]

theorem proper_computeHash (row : AuditLog) (prevHash : Option String) :
    Proper (row.computeHash prevHash) := by
  refine ⟨HashLibrary.sha256_ne_empty _, fun hmem => ?_⟩
  rcases HashLibrary.hexadecimal _ _ hmem with h | h
  · exact absurd h (by decide)
  · exact absurd h (by decide)

theorem binding_computeHash (hinj : Function.Injective HashLibrary.sha256) :
    Link.Binding AuditLog.id (fun row row' => row'.hashedText = row.hashedText) Proper zeroHash
      AuditLog.computeHash where
  genesis := proper_zeroHash
  proper := proper_computeHash
  binds row p row' p' hp hp' h := by
    have hbar : '|' ∉ (p'.getD "").toList := by
      cases p' with
      | none => exact List.not_mem_nil
      | some q => exact (hp' q rfl).2
    obtain ⟨htext, hprev⟩ := eq_of_text_eq hp.2 hbar (hinj h)
    refine ⟨?_, htext.symm⟩
    cases p' with
    | none => exact absurd hprev hp.1
    | some q => rw [hprev, Option.getD_some]
  respects row row' p h := by
    unfold AuditLog.computeHash
    rw [h]
  key row row' h := (id_eq_of_hashedText_eq h).symm

/-- A log that the service wrote from the beginning. -/
inductive Produced : Table AuditLog → Prop
  | empty : Produced ∅
  | logAction {log : Table AuditLog} (h : Produced log) (call : AuditCall)
    (currentUser : Option String) (request : Option Request) (now : DateTime) :
    Produced (AuditService.logAction log call currentUser request now)

section Logs

variable {log log' : Table AuditLog}

theorem Produced.intact (h : Produced log) : Intact log := by
  induction h with
  | empty => exact intact_empty
  | logAction _ call currentUser request now ih =>
    exact intact_logAction ih call currentUser request now

theorem Produced.hashed (h : Produced log) :
    ∀ row ∈ log, ∃ p hash, row.prevHash = some p ∧ p ≠ "" ∧ row.entryHash = some hash ∧
      hash ≠ "" := by
  induction h with
  | empty => exact fun row hrow => absurd hrow (Table.not_mem_empty row)
  | @logAction log _ call currentUser request now ih =>
    intro row hrow
    rcases Table.mem_insert.mp hrow with hrow | rfl
    · exact ih row hrow
    · exact ⟨_, _, rfl, previousHash_ne_empty log _, rfl, HashLibrary.sha256_ne_empty _⟩

theorem Produced.valid_iff (hinj : Function.Injective HashLibrary.sha256) (h : Produced log)
    (hzero : ∀ row ∈ log, row.entryHash ≠ some zeroHash) (hedit : Tampered log.rows log'.rows) :
    (AuditService.verifyIntegrity log').valid = true ↔ List.Forall₂ Same log.rows log'.rows := by
  have hbinding := binding_computeHash hinj
  have hall : log'.select (AuditService.inRange none none) = log'.rows :=
    List.filter_eq_self.mpr fun _ _ => rfl
  rw [valid_iff_passes, hall, ← forall₂_unseen_iff h.hashed]
  constructor
  · intro hpass
    have hsealed : ∀ l ∈ links log,
        l.hash = some (l.body.computeHash l.prev) ∧ l.hash ≠ some zeroHash := by
      intro l hl
      obtain ⟨row, hrow, rfl⟩ := List.mem_map.mp hl
      obtain ⟨_, hash, _, _, hhash, hne⟩ := h.hashed row hrow
      have hlink : (link row).hash = some hash := by
        unfold link
        rw [hhash, truthyText_eq_self hne]
      have hcompute := (h.intact.sealed _ hl hash hlink).1
      rw [hlink, ← hhash]
      exact ⟨hhash.trans (congrArg some hcompute.symm), hzero row hrow⟩
    have hsorted : (links log).Pairwise fun l l' => l.body.id < l'.body.id :=
      List.pairwise_map.mpr (List.pairwise_map.mp log.sorted)
    exact (Link.forall₂_unseen_of_passes hbinding (edited_of_tampered hedit) proper_zeroHash
      h.intact.chained hsealed hsorted (.inl rfl) hpass).2
  · intro hunseen
    exact Link.passes_of_forall₂_unseen hbinding hunseen
      ((Link.passes_iff_chained h.intact.sealed).mpr h.intact.chained)

end Logs

/-- With an injective hash, which gives no row of the log the 64 zeros, verification reports an
error in a tampered log exactly if the tampering deleted a row, cleared a hash or changed the
text under the hash of some row. -/
theorem reported_iff (hinj : Function.Injective HashLibrary.sha256) {log log' : Table AuditLog}
    (hlog : Produced log) (hzero : ∀ row ∈ log, row.entryHash ≠ some zeroHash)
    (hedit : Tampered log.rows log'.rows) :
    (AuditService.verifyIntegrity log').valid = false ↔
      ¬List.Forall₂ Same log.rows log'.rows := by
  rw [← hlog.valid_iff hinj hzero hedit, Bool.not_eq_true]

end Audit

namespace Audit

section Sample

def forgedLog : Table AuditLog :=
  sampleLog.update 1 fun row => { row with username := some "mallory" }

theorem produced_sampleLog :
    let _ := spelledHash
    Produced sampleLog := by
  intro _
  exact .logAction (.logAction .empty sampleCall (some "admin") none (sampleDay 1)) sampleCall
    (some "admin") none (sampleDay 3)

theorem forgedLog_reported :
    let _ := spelledHash
    (AuditService.verifyIntegrity forgedLog).valid = false := by
  intro _
  obtain ⟨prevHash, _, hrows⟩ := rows_sampleLog
  have hforged : forgedLog.rows =
      [{ loggedRow 1 1 zeroHash with username := some "mallory" }, loggedRow 2 3 prevHash] := by
    unfold forgedLog Table.update
    dsimp only
    rw [hrows]
    rfl
  refine (reported_iff spelledDigest_injective produced_sampleLog ?_ ?_).mpr ?_
  · intro row hrow hzero
    rw [Table.mem_def, hrows, List.mem_pair] at hrow
    rcases hrow with rfl | rfl
    · exact spelledDigest_ne_zeroHash _ (Option.some.inj hzero)
    · exact spelledDigest_ne_zeroHash _ (Option.some.inj hzero)
  · rw [hrows, hforged]
    exact .alter ⟨rfl, .inl rfl, .inl rfl⟩ (.last ⟨rfl, .inl rfl, .inl rfl⟩ rfl)
  · intro hsame
    rw [hrows, hforged, List.forall₂_cons] at hsame
    have htext := hsame.1.hashedText
    revert htext
    decide +kernel

/-- An issued certificate whose key and description have a bar between them. -/
def issuedCall : AuditCall :=
  { action := "cert_issue", resourceType := some "certificate"
    resourceId := some (.text "7|web"), resourceName := some "web", details := some "issued" }

def issuedLog : Table AuditLog :=
  let _ := spelledHash
  AuditService.logAction ∅ issuedCall (some "admin") none (sampleDay 1)

def rewrittenLog : Table AuditLog :=
  issuedLog.update 1 fun row =>
    { row with resourceId := some "7", details := some "web|issued", resourceName := some "mail" }

theorem rewrittenLog_passes :
    let _ := spelledHash
    Function.Injective HashLibrary.sha256 ∧ Produced issuedLog ∧
      Tampered issuedLog.rows rewrittenLog.rows ∧ rewrittenLog ≠ issuedLog ∧
      (AuditService.verifyIntegrity rewrittenLog).valid = true := by
  intro _
  have hproduced : Produced issuedLog :=
    .logAction .empty issuedCall (some "admin") none (sampleDay 1)
  have htampered : Tampered issuedLog.rows rewrittenLog.rows :=
    .last ⟨rfl, .inl rfl, .inl rfl⟩ rfl
  refine ⟨spelledDigest_injective, hproduced, htampered, fun heq => ?_, ?_⟩
  · have hnames := congrArg (fun log : Table AuditLog => log.rows.map AuditLog.resourceName) heq
    revert hnames
    decide +kernel
  · refine (hproduced.valid_iff spelledDigest_injective ?_ htampered).mpr ?_
    · intro row hrow hzero
      rcases Table.mem_insert.mp hrow with hnone | rfl
      · exact Table.not_mem_empty row hnone
      · exact spelledDigest_ne_zeroHash _ (Option.some.inj hzero)
    · refine .cons ⟨rfl, rfl, ?_⟩ .nil
      decide +kernel

end Sample

end Audit

end CaManager
