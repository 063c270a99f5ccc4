import CaManager.Keys.Switching

/-!
# Converting the keys of a table

What a loop over a table leaves in its updates and errors, and what writing them, or what other
requests store, does to a property of all keys of the table.
-/

namespace CaManager

open Library Base64

namespace Switching

open MasterKey

def Holds (P : String → Prop) (rows : Table KeyRow) : Prop :=
  ∀ r ∈ rows, ∀ prv ∈ r.prv, P prv

def Encryptable (prv : String) : Prop := ∃ rawData, b64decode prv = .ok rawData

def Released [FernetLibrary] (k : KeyEncryption) (prv : String) : Prop :=
  isEncrypted prv = true → ∃ text, k.decrypt prv = .ok text ∧ Open text

def Refused [FernetLibrary] (k : KeyEncryption) (prv : String) : Prop :=
  isEncrypted prv = true → ∀ text, k.decrypt prv ≠ .ok text

section Loops

variable [FernetLibrary] {k : KeyEncryption} {draws : ℕ → ℕ} {job : Job} {table : String}

def rowUpdate (k : KeyEncryption) (draws : ℕ → ℕ) (job : Job) (row : KeyRow) :
    Option (ℕ × String) :=
  (row.prv.filter job.selects).bind fun prv =>
    match job.convert k (draws row.id) prv with
    | .ok text => if text = prv then none else some (row.id, text)
    | .error _ => none

def rowError (k : KeyEncryption) (draws : ℕ → ℕ) (job : Job) (table : String) (row : KeyRow) :
    Option String :=
  (row.prv.filter job.selects).bind fun prv =>
    match job.convert k (draws row.id) prv with
    | .ok _ => none
    | .error e => some s!"{table} {row.refid}: {e}"

theorem updates_convertRow (p : Progress) (row : KeyRow) :
    (convertRow k draws job table p row).updates =
      p.updates ++ (rowUpdate k draws job row).toList := by
  unfold convertRow rowUpdate
  cases row.prv with
  | none => simp
  | some prv =>
    cases hselects : job.selects prv with
    | false => simp [Option.filter_some, hselects]
    | true =>
      cases hconvert : job.convert k (draws row.id) prv with
      | error e => simp [Option.filter_some, hselects, hconvert]
      | ok text =>
        by_cases hsame : text = prv
        · simp [Option.filter_some, hselects, hconvert, hsame]
        · simp [Option.filter_some, hselects, hconvert, hsame]

theorem errors_convertRow (p : Progress) (row : KeyRow) :
    (convertRow k draws job table p row).errors =
      p.errors ++ (rowError k draws job table row).toList := by
  unfold convertRow rowError
  cases row.prv with
  | none => simp
  | some prv =>
    cases hselects : job.selects prv with
    | false => simp [Option.filter_some, hselects]
    | true =>
      cases hconvert : job.convert k (draws row.id) prv with
      | error e => simp [Option.filter_some, hselects, hconvert]
      | ok text => simp [Option.filter_some, hselects, hconvert]

theorem updates_convertRows (rows : Table KeyRow) (p : Progress) :
    (convertRows k draws job table rows p).updates =
      p.updates ++ rows.rows.filterMap (rowUpdate k draws job) := by
  unfold convertRows
  induction rows.rows generalizing p with
  | nil => simp
  | cons row rest ih =>
    rw [List.foldl_cons, ih, updates_convertRow, List.append_assoc, List.filterMap_cons]
    cases rowUpdate k draws job row with
    | none => rfl
    | some u => rfl

theorem errors_convertRows (rows : Table KeyRow) (p : Progress) :
    (convertRows k draws job table rows p).errors =
      p.errors ++ rows.rows.filterMap (rowError k draws job table) := by
  unfold convertRows
  induction rows.rows generalizing p with
  | nil => simp
  | cons row rest ih =>
    rw [List.foldl_cons, ih, errors_convertRow, List.append_assoc, List.filterMap_cons]
    cases rowError k draws job table row with
    | none => rfl
    | some e => rfl

/-- With the updates every key of the table gets the property. -/
structure Covers (P : String → Prop) (rows : Table KeyRow) (updates : List (ℕ × String)) :
    Prop where
  rows : ∀ r ∈ rows, ∀ prv ∈ r.prv, P prv ∨ ∃ u ∈ updates, u.1 = r.id
  updates : ∀ u ∈ updates, P u.2

theorem covers_convertRows {P : String → Prop} {rows : Table KeyRow} {p : Progress}
    (hp : p.updates = []) (hkept : Holds (fun prv => job.selects prv = false → P prv) rows)
    (hconvert : Holds (fun prv => job.selects prv = true →
      ∀ draw, ∃ text, job.convert k draw prv = .ok text ∧ P text) rows) :
    Covers P rows (convertRows k draws job table rows p).updates ∧
      (convertRows k draws job table rows p).errors = p.errors := by
  rw [updates_convertRows, errors_convertRows, hp, List.nil_append]
  refine ⟨⟨fun r hr prv hprv => ?_, fun u hu => ?_⟩, ?_⟩
  · cases hselects : job.selects prv with
    | false => exact .inl (hkept r hr prv hprv hselects)
    | true =>
      obtain ⟨text, htext, hP⟩ := hconvert r hr prv hprv hselects (draws r.id)
      by_cases hsame : text = prv
      · exact .inl (hsame ▸ hP)
      · refine .inr ⟨(r.id, text), List.mem_filterMap.mpr ⟨r, hr, ?_⟩, rfl⟩
        simp [rowUpdate, Option.filter_some, Option.mem_def.mp hprv, hselects, htext, hsame]
  · obtain ⟨r, hr, hupdate⟩ := List.mem_filterMap.mp hu
    obtain ⟨prv, hprv, hupdate⟩ := Option.bind_eq_some_iff.mp hupdate
    obtain ⟨hprv, hselects⟩ := Option.filter_eq_some_iff.mp hprv
    obtain ⟨text, htext, hP⟩ := hconvert r hr prv hprv hselects (draws r.id)
    rw [htext] at hupdate
    dsimp only at hupdate
    split_ifs at hupdate
    cases hupdate
    exact hP
  · rw [List.filterMap_eq_nil_iff.mpr, List.append_nil]
    intro r hr
    unfold rowError
    rw [Option.bind_eq_none_iff]
    intro prv hprv
    obtain ⟨hprv, hselects⟩ := Option.filter_eq_some_iff.mp hprv
    obtain ⟨text, htext, -⟩ := hconvert r hr prv hprv hselects (draws r.id)
    rw [htext]

variable (draws job table) in
/-- A loop none of whose conversions succeeds changes nothing, and has an error unless there was
nothing to convert. -/
theorem idle_convertRows {rows : Table KeyRow} {p : Progress} (hp : p.updates = [])
    (hrefused : Holds (fun prv => job.selects prv = true →
      ∀ draw text, job.convert k draw prv ≠ .ok text) rows) :
    (convertRows k draws job table rows p).updates = [] ∧
      ((convertRows k draws job table rows p).errors = [] →
        p.errors = [] ∧ Holds (fun prv => job.selects prv = false) rows) := by
  rw [updates_convertRows, errors_convertRows, hp, List.nil_append]
  constructor
  · rw [List.filterMap_eq_nil_iff]
    intro r hr
    unfold rowUpdate
    rw [Option.bind_eq_none_iff]
    intro prv hprv
    obtain ⟨hprv, hselects⟩ := Option.filter_eq_some_iff.mp hprv
    cases hconvert : job.convert k (draws r.id) prv with
    | ok text => exact absurd hconvert (hrefused r hr prv hprv hselects _ text)
    | error e => rfl
  · intro hnone
    obtain ⟨hold, hnew⟩ := List.append_eq_nil_iff.mp hnone
    refine ⟨hold, fun r hr prv hprv => ?_⟩
    have hrow := List.filterMap_eq_nil_iff.mp hnew r hr
    refine Bool.eq_false_iff.mpr fun hselects => ?_
    cases hconvert : job.convert k (draws r.id) prv with
    | ok text => exact hrefused r hr prv hprv hselects _ text hconvert
    | error e => simp [rowError, Option.filter_some, Option.mem_def.mp hprv, hselects, hconvert] at hrow

theorem covers_enable {before : Option String} {rows : Table KeyRow} {p : Progress}
    (hk : k.isEnabled = true) (hp : p.updates = []) (h : Holds Encryptable rows) :
    Covers Sealed rows (convertRows k draws (.enable before) table rows p).updates := by
  refine (covers_convertRows hp (fun r hr prv hprv hselects => ?_)
    fun r hr prv hprv _ draw => ?_).1
  · exact .inr (Bool.not_eq_false' _ ▸ hselects)
  · obtain ⟨rawData, hdecode⟩ := h r hr prv hprv
    exact ⟨_, rfl, sealed_encrypt hk draw hdecode⟩

variable (draws table) in
theorem covers_disable (before : Option String) {rows : Table KeyRow} (p : Progress)
    (hp : p.updates = []) (h : Holds (Released k) rows) :
    Covers Open rows (convertRows k draws (.disable before) table rows p).updates ∧
      (convertRows k draws (.disable before) table rows p).errors = p.errors :=
  covers_convertRows hp (fun _ _ _ _ hselects => hselects)
    fun r hr prv hprv hselects _ => h r hr prv hprv hselects

variable (draws table) in
theorem idle_disable (before : Option String) {rows : Table KeyRow} (p : Progress)
    (hp : p.updates = []) (h : Holds (Refused k) rows) :
    (convertRows k draws (.disable before) table rows p).updates = [] ∧
      ((convertRows k draws (.disable before) table rows p).errors = [] → p.errors = [] ∧
        Covers Open rows (convertRows k draws (.disable before) table rows p).updates) := by
  obtain ⟨hidle, hopen⟩ := idle_convertRows draws (.disable before) table hp
    fun r hr prv hprv hselects _ => h r hr prv hprv hselects
  refine ⟨hidle, fun herrors => ⟨(hopen herrors).1, fun r hr prv hprv => ?_, fun u hu => ?_⟩⟩
  · exact .inl ((hopen herrors).2 r hr prv hprv)
  · rw [hidle] at hu
    cases hu

end Loops

section Writes

variable {P Q : String → Prop} {rows rows' : Table KeyRow} {updates : List (ℕ × String)}

def Kept (P : String → Prop) (rows rows' : Table KeyRow) : Prop :=
  ∀ r' ∈ rows', ∀ prv ∈ r'.prv, (∃ r ∈ rows, r.id = r'.id ∧ r.prv = some prv) ∨ P prv

theorem kept_refl : Kept P rows rows := fun r hr _ hprv => .inl ⟨r, hr, rfl, hprv⟩

theorem Kept.imp (h : Kept P rows rows') (hPQ : ∀ prv, P prv → Q prv) : Kept Q rows rows' :=
  fun r' hr' prv hprv => (h r' hr' prv hprv).imp_right (hPQ prv)

theorem Holds.of_kept (h : Holds P rows) (hkept : Kept P rows rows') : Holds P rows' := by
  intro r' hr' prv hprv
  rcases hkept r' hr' prv hprv with ⟨r, hr, -, hold⟩ | hP
  · exact h r hr prv hold
  · exact hP

theorem Covers.of_kept (h : Covers P rows updates) (hkept : Kept P rows rows') :
    Covers P rows' updates := by
  refine ⟨fun r' hr' prv hprv => ?_, h.updates⟩
  rcases hkept r' hr' prv hprv with ⟨r, hr, hid, hold⟩ | hP
  · rw [← hid]
    exact h.rows r hr prv hold
  · exact .inl hP

theorem kept_storeKey {prv : Option String} (place : Place) (h : ∀ text ∈ prv, P text) :
    Kept P rows (storeKey rows prv place) := by
  intro r' hr' text htext
  cases place with
  | new refid =>
    rcases Table.mem_insert.mp hr' with hold | rfl
    · exact .inl ⟨r', hold, rfl, htext⟩
    · exact .inr (h text htext)
  | row id =>
    rcases Table.mem_update.mp hr' with ⟨hold, -⟩ | ⟨r, -, rfl⟩
    · exact .inl ⟨r', hold, rfl, htext⟩
    · exact .inr (h text htext)

theorem mem_writeUpdates {r : KeyRow} (h : r ∈ writeUpdates rows updates) :
    (r ∈ rows ∧ ∀ u ∈ updates, u.1 ≠ r.id) ∨
      ∃ u ∈ updates, u.1 = r.id ∧ r.prv = some u.2 := by
  unfold writeUpdates at h
  induction updates generalizing rows with
  | nil => exact .inl ⟨h, fun u hu => absurd hu List.not_mem_nil⟩
  | cons u updates ih =>
    rw [List.foldl_cons] at h
    rcases ih h with ⟨hold, hothers⟩ | ⟨u', hu', hid, hprv⟩
    · rcases Table.mem_update.mp hold with ⟨hmem, hne⟩ | ⟨r₀, -, rfl⟩
      · refine .inl ⟨hmem, fun u' hu' => ?_⟩
        rcases List.mem_cons.mp hu' with rfl | hu'
        · exact Ne.symm hne
        · exact hothers u' hu'
      · exact .inr ⟨u, List.mem_cons_self, rfl, rfl⟩
    · exact .inr ⟨u', List.mem_cons_of_mem u hu', hid, hprv⟩

theorem kept_writeUpdates (h : ∀ u ∈ updates, P u.2) :
    Kept P rows (writeUpdates rows updates) := by
  intro r hr prv hprv
  rcases mem_writeUpdates hr with ⟨hold, -⟩ | ⟨u, hu, -, hnew⟩
  · exact .inl ⟨r, hold, rfl, hprv⟩
  · cases hnew.symm.trans hprv
    exact .inr (h u hu)

theorem Covers.writeUpdates (h : Covers P rows updates) : Holds P (writeUpdates rows updates) := by
  intro r hr prv hprv
  rcases mem_writeUpdates hr with ⟨hold, hothers⟩ | ⟨u, hu, -, hnew⟩
  · rcases h.rows r hold prv hprv with hP | ⟨u, hu, hid⟩
    · exact hP
    · exact absurd hid (hothers u hu)
  · cases hnew.symm.trans hprv
    exact h.updates u hu

end Writes

end Switching

end CaManager
