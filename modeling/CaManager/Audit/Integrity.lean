import CaManager.Audit.Log
import CaManager.Library.Machines

/-!
# Integrity of the audit log

The log starts empty. Appending and the rows of other services keep the whole log valid. A
clean-up keeps it valid exactly if every remaining row with a hash still follows the hash that
it followed, and a verification of a range finds it valid exactly if the same holds of the
rows outside the range.
-/

namespace CaManager

open Library

namespace Audit

def link (row : AuditLog) : Link AuditLog String :=
  ⟨row, truthyText row.prevHash, truthyText row.entryHash⟩

def links (log : Table AuditLog) : List (Link AuditLog String) := log.rows.map link

section Links

variable {log : Table AuditLog}

theorem getD_truthyText (o : Option String) : (truthyText o).getD "" = o.getD "" := by
  cases o with
  | none => rfl
  | some s =>
    unfold truthyText
    rw [Option.filter_some]
    split_ifs with h
    · rfl
    · have hempty : s = "" := by simpa using h
      rw [hempty]
      rfl

theorem truthyText_eq_self {s : String} (h : s ≠ "") : truthyText (some s) = some s := by
  unfold truthyText
  rw [Option.filter_some, if_pos (decide_eq_true h)]

theorem ne_empty_of_truthyText {o : Option String} {s : String} (h : truthyText o = some s) :
    s ≠ "" := by
  simpa using (Option.filter_eq_some_iff.mp h).2

theorem links_filter (log : Table AuditLog) (keep : AuditLog → Bool) :
    (log.rows.filter keep).map link = (links log).filter fun l => keep l.body := by
  unfold links
  rw [List.filter_map]
  rfl

theorem previousHash_eq (log : Table AuditLog) :
    AuditService.previousHash log log.nextKey = Link.lastHash zeroHash zeroHash (links log) := by
  have hall : (log.select fun row => row.id < log.nextKey) = log.rows :=
    List.filter_eq_self.mpr fun row hrow => decide_eq_true (Table.key_lt_nextKey hrow)
  unfold AuditService.previousHash links
  rw [hall, Link.lastHash_eq, List.getLast?_map]
  cases log.rows.getLast? <;> rfl

theorem previousHash_ne_empty (log : Table AuditLog) (id : ℕ) :
    AuditService.previousHash log id ≠ "" := by
  unfold AuditService.previousHash
  dsimp only
  cases h : (log.select fun row => row.id < id).getLast?.bind fun row =>
      truthyText row.entryHash with
  | none => decide
  | some hash =>
    obtain ⟨row, _, hrow⟩ := Option.bind_eq_some_iff.mp h
    exact ne_empty_of_truthyText hrow

end Links

variable [HashLibrary]

section Verification

variable {log : Table AuditLog} {row : AuditLog} {prevHash : String}

theorem computeHash_truthyText (row : AuditLog) (o : Option String) :
    row.computeHash (truthyText o) = row.computeHash o := by
  unfold AuditLog.computeHash
  rw [getD_truthyText]

theorem checkLogs_eq_nil_iff (rows : List AuditLog) :
    AuditService.checkLogs prevHash rows = [] ↔
      Link.Passes zeroHash AuditLog.computeHash prevHash (rows.map link) := by
  induction rows generalizing prevHash with
  | nil => exact iff_of_true rfl trivial
  | cons row rows ih =>
    cases hentry : truthyText row.entryHash with
    | none => simp only [AuditService.checkLogs, List.map_cons, Link.Passes, link, hentry, ih]
    | some entryHash =>
      simp only [AuditService.checkLogs, List.map_cons, Link.Passes, link, hentry,
        List.append_eq_nil_iff, ih, computeHash_truthyText, and_assoc]
      refine and_congr ?_ (and_congr_left' ?_)
      · simp [List.filter_eq_nil_iff]
      · simp

theorem valid_iff_passes (startId endId : Option ℤ) :
    (AuditService.verifyIntegrity log startId endId).valid = true ↔
      Link.Passes zeroHash AuditLog.computeHash zeroHash
        ((log.select (AuditService.inRange startId endId)).map link) := by
  unfold AuditService.verifyIntegrity
  rw [← checkLogs_eq_nil_iff]
  split
  · next heq =>
    rw [heq]
    exact iff_of_true rfl rfl
  · simp

end Verification

/-- Every row of the log is sealed and chained to the row before it. -/
structure Intact (log : Table AuditLog) : Prop where
  sealed : ∀ l ∈ links log, l.Sealed AuditLog.computeHash
  chained : Link.Chained zeroHash zeroHash (links log)

/-- Every row that is kept and has a hash still follows the hash that it followed, which is
64 zeros after a row without a hash and at the beginning. -/
def SafelyKept (log : Table AuditLog) (keep : AuditLog → Bool) : Prop :=
  Link.SafeCut zeroHash (fun l => keep l.body) zeroHash zeroHash (links log)

instance (log : Table AuditLog) (keep : AuditLog → Bool) : Decidable (SafelyKept log keep) :=
  inferInstanceAs (Decidable (Link.SafeCut _ _ _ _ _))

def Safe (log : Table AuditLog) : Event → Prop
  | .cleanupOldLogs cutoff => SafelyKept log fun row => !row.olderThan cutoff
  | .verify startId endId => SafelyKept log (AuditService.inRange startId endId)
  | .logAction .. | .write .. | .cleanupAuditLogs _ => True

instance (log : Table AuditLog) : ∀ e, Decidable (Safe log e)
  | .cleanupOldLogs cutoff =>
    inferInstanceAs (Decidable (SafelyKept log fun row => !row.olderThan cutoff))
  | .verify startId endId =>
    inferInstanceAs (Decidable (SafelyKept log (AuditService.inRange startId endId)))
  | .logAction .. | .write .. | .cleanupAuditLogs _ => .isTrue trivial

/-- A verification reports that the log is valid, and after every other event the whole log
would be found valid. -/
def Sound (log : Table AuditLog) : Event → Prop
  | .verify startId endId => (AuditService.verifyIntegrity log startId endId).valid = true
  | e => (AuditService.verifyIntegrity (step log e)).valid = true

section Steps

variable {log : Table AuditLog}

theorem Intact.passes_filter_iff (h : Intact log) (keep : AuditLog → Bool) :
    Link.Passes zeroHash AuditLog.computeHash zeroHash ((log.rows.filter keep).map link) ↔
      SafelyKept log keep := by
  rw [links_filter]
  rw [Link.passes_iff_chained fun l hl => h.sealed l (List.mem_filter.mp hl).1]
  exact Link.chained_filter_iff h.chained

theorem Intact.valid (h : Intact log) :
    (AuditService.verifyIntegrity log).valid = true := by
  have hall : log.select (AuditService.inRange none none) = log.rows :=
    List.filter_eq_self.mpr fun _ _ => rfl
  rw [valid_iff_passes, hall]
  exact (Link.passes_iff_chained h.sealed).mpr h.chained

theorem Intact.deleteWhere_iff (h : Intact log) (p : AuditLog → Bool) :
    Intact (log.deleteWhere p) ↔ SafelyKept log fun row => !p row := by
  have hlinks : links (log.deleteWhere p) = (links log).filter fun l => !p l.body :=
    links_filter log fun row => !p row
  have hiff : Link.Chained zeroHash zeroHash (links (log.deleteWhere p)) ↔
      SafelyKept log fun row => !p row := by
    rw [hlinks]
    exact Link.chained_filter_iff h.chained
  rw [← hiff]
  refine ⟨Intact.chained, fun hchained => ⟨fun l hl => ?_, hchained⟩⟩
  rw [hlinks] at hl
  exact h.sealed l (List.mem_filter.mp hl).1

theorem Intact.valid_deleteWhere_iff (h : Intact log) (p : AuditLog → Bool) :
    (AuditService.verifyIntegrity (log.deleteWhere p)).valid = true ↔
      SafelyKept log fun row => !p row := by
  have hall : (log.deleteWhere p).select (AuditService.inRange none none) =
      log.rows.filter fun row => !p row := List.filter_eq_self.mpr fun _ _ => rfl
  rw [valid_iff_passes, hall, h.passes_filter_iff]

theorem Intact.insert (h : Intact log) {row : AuditLog}
    (hsealed : (link (Keyed.withKey log.nextKey row)).Sealed AuditLog.computeHash)
    (hprev : truthyText row.entryHash ≠ none →
      truthyText row.prevHash = some (Link.lastHash zeroHash zeroHash (links log))) :
    Intact (log.insert row) := by
  have hlinks : links (log.insert row) = links log ++ [link (Keyed.withKey log.nextKey row)] :=
    List.map_append
  constructor
  · intro l hl
    rw [hlinks, List.mem_append, List.mem_singleton] at hl
    rcases hl with hl | rfl
    · exact h.sealed l hl
    · exact hsealed
  · rw [hlinks, Link.chained_concat]
    exact ⟨h.chained, hprev⟩

theorem link_chained (row : AuditLog) {prevHash : String} (h : prevHash ≠ "") :
    link (AuditService.chained row prevHash) =
      ⟨AuditService.chained row prevHash, some prevHash, some (row.computeHash (some prevHash))⟩ := by
  have hentry := truthyText_eq_self (HashLibrary.sha256_ne_empty
    (row.hashedText ++ "|" ++ (some prevHash).getD ""))
  unfold link
  exact congrArg₂ (Link.mk _) (truthyText_eq_self h) hentry

theorem sealed_chained (row : AuditLog) {prevHash : String} (h : prevHash ≠ "") :
    (link (AuditService.chained row prevHash)).Sealed AuditLog.computeHash := by
  rw [link_chained row h]
  intro hash hhash
  exact ⟨Option.some.inj hhash, Option.some_ne_none prevHash⟩

theorem intact_logAction (h : Intact log) (call : AuditCall) (currentUser : Option String)
    (request : Option Request) (now : DateTime) :
    Intact (AuditService.logAction log call currentUser request now) := by
  have hne := previousHash_ne_empty log log.nextKey
  refine h.insert (sealed_chained _ hne) fun _ => ?_
  rw [← previousHash_eq]
  exact truthyText_eq_self hne

theorem intact_step (h : Intact log) {e : Event} (hsafe : Safe log e) : Intact (step log e) := by
  cases e with
  | logAction call currentUser request now => exact intact_logAction h call currentUser request now
  | write writer now =>
    have hnone : truthyText (writer.row now).entryHash = none := by
      rw [OtherWriter.entryHash_row]
      rfl
    refine h.insert (fun hash hhash => ?_) fun hne => absurd hnone hne
    cases hnone.symm.trans hhash
  | cleanupOldLogs cutoff => exact (h.deleteWhere_iff _).mpr hsafe
  | cleanupAuditLogs cutoff =>
    simp only [step, RetentionPolicy.cleanupAuditLogs_snd]
    exact h
  | verify => exact h

theorem sound_iff_safe (h : Intact log) (e : Event) : Sound log e ↔ Safe log e := by
  cases e with
  | logAction call currentUser request now =>
    exact iff_of_true (intact_logAction h call currentUser request now).valid trivial
  | write writer now =>
    exact iff_of_true (intact_step (e := .write writer now) h trivial).valid trivial
  | cleanupAuditLogs cutoff =>
    exact iff_of_true (intact_step (e := .cleanupAuditLogs cutoff) h trivial).valid trivial
  | cleanupOldLogs cutoff => exact h.valid_deleteWhere_iff _
  | verify startId endId => exact (valid_iff_passes _ _).trans (h.passes_filter_iff _)

end Steps

theorem intact_empty : Intact ∅ := by
  refine ⟨fun l hl => ?_, Link.chained_nil⟩
  cases hl

/-- In a run from the empty log, every verification reports a valid log and the whole log stays
valid exactly if each clean-up and each range asked for keeps the rows safely. -/
theorem sound_run_iff (es : List Event) : Meets step Sound ∅ es ↔ Meets step Safe ∅ es :=
  meets_iff_of_invariant (fun _ e h => sound_iff_safe h e) (fun _ _ h hsafe => intact_step h hsafe)
    intact_empty

end Audit

namespace Audit

section Sample

theorem spelledDigest_ne_zeroHash (s : String) : spelledDigest s ≠ zeroHash := by
  intro h
  have hlist := String.ofList_injective h
  have hmem : 'f' ∈ List.replicate 64 '0' := by
    rw [← hlist]
    exact List.mem_cons_self
  exact absurd (List.eq_of_mem_replicate hmem) (by decide)

def sampleDay (day : ℕ) : DateTime := { year := 2025, month := 1, day }

def sampleCall : AuditCall := { action := "login_success" }

def loggedOn (day : ℕ) : Event := .logAction sampleCall (some "admin") none (sampleDay day)

def loggedRow (id day : ℕ) (prevHash : String) : AuditLog :=
  let _ := spelledHash
  AuditService.chained
    { AuditService.newRow sampleCall (some "admin") none (sampleDay day) with id } prevHash

def sampleLog : Table AuditLog :=
  let _ := spelledHash
  run step ∅ [loggedOn 1, loggedOn 3]

theorem rows_sampleLog : ∃ prevHash ≠ "",
    sampleLog.rows = [loggedRow 1 1 zeroHash, loggedRow 2 3 prevHash] := by
  let _ := spelledHash
  exact ⟨_, previousHash_ne_empty (run step ∅ [loggedOn 1]) 2, rfl⟩

theorem not_safelyKept_sampleLog {keep : AuditLog → Bool}
    (hfirst : ∀ prevHash, keep (loggedRow 1 1 prevHash) = false)
    (hsecond : ∀ prevHash, keep (loggedRow 2 3 prevHash) = true) : ¬SafelyKept sampleLog keep := by
  let _ := spelledHash
  obtain ⟨prevHash, hne, hrows⟩ := rows_sampleLog
  intro hsafe
  unfold SafelyKept links at hsafe
  rw [hrows, List.map_cons, List.map_singleton, loggedRow, loggedRow,
    link_chained _ (by decide), link_chained _ hne] at hsafe
  have hfirst := hfirst zeroHash
  have hsecond := hsecond prevHash
  rw [loggedRow] at hfirst hsecond
  simp only [Link.SafeCut, hfirst, hsecond] at hsafe
  have hzero := hsafe.2.1 trivial (Option.some_ne_none _)
  exact spelledDigest_ne_zeroHash _ hzero.symm

theorem intact_sampleLog :
    let _ := spelledHash
    Intact sampleLog := by
  intro _
  exact intact_step (intact_step intact_empty (e := loggedOn 1) trivial) (e := loggedOn 3) trivial

/-- A verification from the second row, and a clean-up of the first, report the second row. -/
theorem second_row_reported :
    let _ := spelledHash
    ¬Meets step Sound ∅ [loggedOn 1, loggedOn 3, .verify (some 2) none] ∧
      ¬Meets step Sound ∅ [loggedOn 1, loggedOn 3, .cleanupOldLogs (sampleDay 2)] := by
  intro _
  have hrange : ¬SafelyKept sampleLog (AuditService.inRange (some 2) none) :=
    not_safelyKept_sampleLog (fun _ => by rfl) (fun _ => by rfl)
  have hcleanup : ¬SafelyKept sampleLog fun row => !row.olderThan (sampleDay 2) :=
    not_safelyKept_sampleLog (fun _ => by rfl) (fun _ => by rfl)
  constructor
  · intro h
    exact hrange ((sound_iff_safe intact_sampleLog (.verify (some 2) none)).mp h.2.2.1)
  · intro h
    exact hcleanup ((sound_iff_safe intact_sampleLog (.cleanupOldLogs (sampleDay 2))).mp h.2.2.1)

end Sample

end Audit

end CaManager
