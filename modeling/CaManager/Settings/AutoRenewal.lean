import CaManager.Settings.General

/-!
# Settings of the automatic renewal

A configuration is written one row for each of its fields, under a key that is made of the field's
name. Three rows are read, two of them under other keys than those: what is written of the days and
the sources is never read again. Only whether renewal is enabled can be set.
-/

namespace CaManager

open Library

namespace AutoRenewalService

open GeneralSettings

variable {F : Type}

structure Fields (F : Type) where
  members : JsonMembers F
  distinct : (members.map Prod.fst).Nodup

section Writing

variable [FloatText F]

mutual

/-- `json.dumps`, on one line. -/
def dumpsValue : JsonTree F → List Char
  | .null => "null".toList
  | .bool true => "true".toList
  | .bool false => "false".toList
  | .integer z => writeInt 10 z
  | .float x => FloatText.write x
  | .text s => quote s
  | .array [] => ['[', ']']
  | .array (e :: es) => '[' :: (dumpsValue e ++ dumpsElements es ++ [']'])
  | .object [] => ['\x7b', '\x7d']
  | .object ((k, v) :: ms) =>
    '\x7b' :: (quote k ++ [':', ' '] ++ dumpsValue v ++ dumpsMembers ms ++ ['\x7d'])

def dumpsElements : List (JsonTree F) → List Char
  | [] => []
  | e :: es => ',' :: ' ' :: (dumpsValue e ++ dumpsElements es)

def dumpsMembers : List (String × JsonTree F) → List Char
  | [] => []
  | (k, v) :: ms =>
    ',' :: ' ' :: (quote k ++ [':', ' '] ++ dumpsValue v ++ dumpsMembers ms)

end

def dbKey (key : String) : String := "auto_renewal_" ++ key

variable [StrLibrary F]

def dbValue (key : String) (value : JsonTree F) : String :=
  if key = "enabled" then (if value.truthy then "true" else "false")
  else if key = "renewal_sources" then String.ofList (dumpsValue value)
  else str value

/-- `set_renewal_config` -/
def setRenewalConfig (db : ConfigTable) (config : JsonMembers F) : ConfigTable :=
  config.foldl (fun db member => setConfig db (dbKey member.1) (some (dbValue member.1 member.2))) db

end Writing

section Reading

/-- The `enabled` of `get_renewal_config`. -/
def readEnabled (db : ConfigTable) : Bool := db "auto_renewal_enabled" = some (some "true")

/-- The `days_before_expiry`, unless the row holds no number. -/
def readDays (db : ConfigTable) : Option ℤ :=
  match db "auto_renewal_days" with
  | none => some 30
  | some value => value.bind fun text => readInt 10 text.toList

variable [FloatText F]

/-- The `renewal_sources`, unless the row holds no JSON. -/
def readSources (db : ConfigTable) : Option (JsonTree F) :=
  match db "auto_renewal_sources" with
  | none => some (.array [.text "scep", .text "acme", .text "est"])
  | some value => value.bind JsonTree.loads

def renewalConfig (enabled : Bool) (days : ℤ) (sources : JsonTree F) : JsonMembers F :=
  [("enabled", .bool enabled), ("days_before_expiry", .integer days), ("renewal_sources", sources),
    ("notify_on_renewal", .bool true), ("notify_on_failure", .bool true)]

/-- `get_renewal_config`, unless it raises. -/
def getRenewalConfig (db : ConfigTable) : Option (JsonMembers F) := do
  let days ← readDays db
  let sources ← readSources db
  return renewalConfig (readEnabled db) days sources

end Reading

variable [FloatText F] [StrLibrary F]

/-- What is set is returned afterwards, and the other fields are returned as before. -/
structure Kept (db : ConfigTable) (config : Fields F) : Prop where
  returned : ∃ after, getRenewalConfig (setRenewalConfig db config.members) = some after ∧
    ∀ member ∈ config.members, JsonTree.lookup member.1 after = some member.2
  others : ∀ key ∉ config.members.map Prod.fst,
    (getRenewalConfig (setRenewalConfig db config.members)).bind (JsonTree.lookup key) =
      ((getRenewalConfig db).bind (JsonTree.lookup key) : Option (JsonTree F))

/-- The fields are what they were before, but for `enabled`, which may be any Boolean. -/
def Unchanged (db : ConfigTable) (config : Fields F) : Prop :=
  ∃ before, getRenewalConfig db = some before ∧ ∀ member ∈ config.members,
    if member.1 = "enabled" then ∃ b, member.2 = .bool b
    else JsonTree.lookup member.1 before = some member.2

section Rows

variable {db : ConfigTable} {members : JsonMembers F} {key row : String} {value : JsonTree F}

theorem dbKey_injective : Function.Injective dbKey := by
  intro key key' h
  exact (String.append_right_inj "auto_renewal_").mp h

theorem setRenewalConfig_of_notMem (h : ∀ member ∈ members, dbKey member.1 ≠ row) :
    setRenewalConfig db members row = db row := by
  induction members generalizing db with
  | nil => rfl
  | cons member members ih =>
    have hne : row ≠ dbKey member.1 := (h member List.mem_cons_self).symm
    rw [setRenewalConfig, List.foldl_cons]
    refine (ih fun m hm => h m (List.mem_cons_of_mem _ hm)).trans ?_
    exact if_neg hne

theorem setRenewalConfig_of_mem (hdistinct : (members.map Prod.fst).Nodup)
    (h : (key, value) ∈ members) :
    setRenewalConfig db members (dbKey key) = some (some (dbValue key value)) := by
  induction members generalizing db with
  | nil => cases h
  | cons member members ih =>
    obtain ⟨hnew, hdistinct⟩ := List.nodup_cons.mp hdistinct
    rw [setRenewalConfig, List.foldl_cons]
    rcases List.mem_cons.mp h with rfl | h
    · refine (setRenewalConfig_of_notMem fun m hm heq => ?_).trans (if_pos rfl)
      exact hnew (List.mem_map.mpr ⟨m, hm, dbKey_injective heq⟩)
    · exact ih hdistinct h

theorem setRenewalConfig_of_key (h : key ∉ members.map Prod.fst) :
    setRenewalConfig db members (dbKey key) = db (dbKey key) := by
  refine setRenewalConfig_of_notMem fun member hmember heq => h ?_
  exact dbKey_injective heq ▸ List.mem_map_of_mem hmember

theorem readDays_set (h : "days" ∉ members.map Prod.fst) :
    readDays (setRenewalConfig db members) = readDays db := by
  have hrow := @setRenewalConfig_of_key _ _ _ db _ _ h
  have hkey : dbKey "days" = "auto_renewal_days" := by decide
  rw [hkey] at hrow
  rw [readDays, hrow]
  rfl

theorem readSources_set (h : "sources" ∉ members.map Prod.fst) :
    (readSources (setRenewalConfig db members) : Option (JsonTree F)) = readSources db := by
  have hrow := @setRenewalConfig_of_key _ _ _ db _ _ h
  have hkey : dbKey "sources" = "auto_renewal_sources" := by decide
  rw [hkey] at hrow
  rw [readSources, hrow]
  rfl

theorem readEnabled_set_of_notMem (h : "enabled" ∉ members.map Prod.fst) :
    readEnabled (setRenewalConfig db members) = readEnabled db := by
  have hrow := @setRenewalConfig_of_key _ _ _ db _ _ h
  have hkey : dbKey "enabled" = "auto_renewal_enabled" := by decide
  rw [hkey] at hrow
  rw [readEnabled, hrow]
  rfl

theorem readEnabled_set_of_mem (hdistinct : (members.map Prod.fst).Nodup)
    (h : ("enabled", value) ∈ members) :
    readEnabled (setRenewalConfig db members) = value.truthy := by
  have hrow := @setRenewalConfig_of_mem _ _ _ db _ _ _ hdistinct h
  have hkey : dbKey "enabled" = "auto_renewal_enabled" := by decide
  rw [hkey] at hrow
  rw [readEnabled, hrow, dbValue, if_pos rfl]
  cases value.truthy <;> decide

end Rows

section Fields

variable {enabled : Bool} {days : ℤ} {sources : JsonTree F} {key : String}

omit [FloatText F] [StrLibrary F] in
theorem lookup_renewalConfig_row (h : key = "days" ∨ key = "sources") :
    JsonTree.lookup key (renewalConfig enabled days sources) = none := by
  rcases h with rfl | rfl <;> rfl

omit [FloatText F] [StrLibrary F] in
theorem lookup_renewalConfig_of_ne {enabled' : Bool} (h : key ≠ "enabled") :
    JsonTree.lookup key (renewalConfig enabled days sources) =
      JsonTree.lookup key (renewalConfig enabled' days sources) := by
  simp [renewalConfig, JsonTree.lookup, Ne.symm h]

end Fields

variable {db : ConfigTable} {config : Fields F}

omit [FloatText F] [StrLibrary F] in
theorem row_notMem {before : JsonMembers F} {members : JsonMembers F} {row : String}
    (h : ∀ member ∈ members,
      member.1 = "enabled" ∨ JsonTree.lookup member.1 before = some member.2)
    (hbefore : ∃ enabled days sources, before = renewalConfig enabled days sources)
    (hrow : row = "days" ∨ row = "sources") : row ∉ members.map Prod.fst := by
  obtain ⟨enabled, days, sources, rfl⟩ := hbefore
  intro hmem
  obtain ⟨member, hmember, rfl⟩ := List.mem_map.mp hmem
  rcases h member hmember with henabled | hlookup
  · rw [henabled] at hrow
    revert hrow
    decide
  · rw [lookup_renewalConfig_row hrow] at hlookup
    cases hlookup

omit [StrLibrary F] in
theorem getRenewalConfig_eq_some {fields : JsonMembers F} : getRenewalConfig db = some fields ↔
    ∃ days sources, readDays db = some days ∧ readSources db = some sources ∧
      renewalConfig (readEnabled db) days sources = fields := by
  unfold getRenewalConfig
  simp only [Option.bind_eq_bind, Option.bind_eq_some_iff, Option.pure_def, Option.some.injEq]
  constructor
  · rintro ⟨days, hdays, sources, hsources, hfields⟩
    exact ⟨days, sources, hdays, hsources, hfields⟩
  · rintro ⟨days, sources, hdays, hsources, hfields⟩
    exact ⟨days, hdays, sources, hsources, hfields⟩

theorem getRenewalConfig_set {members fields : JsonMembers F}
    (h : ∀ row, row = "days" ∨ row = "sources" → row ∉ members.map Prod.fst) :
    getRenewalConfig (setRenewalConfig db members) = some fields ↔
      ∃ days sources, readDays db = some days ∧ readSources db = some sources ∧
        renewalConfig (readEnabled (setRenewalConfig db members)) days sources = fields := by
  rw [getRenewalConfig_eq_some, readDays_set (h "days" (.inl rfl)),
    readSources_set (h "sources" (.inr rfl))]

theorem unchanged_of_kept (h : Kept db config) : Unchanged db config := by
  obtain ⟨after, hafter, hreturned⟩ := h.returned
  obtain ⟨_, _, _, _, hfields⟩ := getRenewalConfig_eq_some.mp hafter
  have hrows : ∀ row, row = "days" ∨ row = "sources" → row ∉ config.members.map Prod.fst :=
    fun row => row_notMem (fun member hmember => .inr (hreturned member hmember))
      ⟨_, _, _, hfields.symm⟩
  obtain ⟨days, sources, hdays, hsources, rfl⟩ := (getRenewalConfig_set hrows).mp hafter
  refine ⟨_, getRenewalConfig_eq_some.mpr ⟨days, sources, hdays, hsources, rfl⟩, ?_⟩
  intro member hmember
  have hlookup := hreturned member hmember
  split_ifs with hkey
  · rw [hkey] at hlookup
    exact ⟨_, (Option.some.inj hlookup).symm⟩
  · rwa [lookup_renewalConfig_of_ne hkey] at hlookup

theorem kept_of_unchanged (h : Unchanged db config) : Kept db config := by
  obtain ⟨before, hbefore, hunchanged⟩ := h
  obtain ⟨days, sources, hdays, hsources, rfl⟩ := getRenewalConfig_eq_some.mp hbefore
  have hrows : ∀ row, row = "days" ∨ row = "sources" → row ∉ config.members.map Prod.fst := by
    intro row
    refine row_notMem (fun member hmember => ?_) ⟨readEnabled db, days, sources, rfl⟩
    have hmember := hunchanged member hmember
    split_ifs at hmember with hkey
    · exact .inl hkey
    · exact .inr hmember
  have hafter := (getRenewalConfig_set hrows).mpr ⟨days, sources, hdays, hsources, rfl⟩
  refine ⟨⟨_, hafter, fun member hmember => ?_⟩, fun key hkey => ?_⟩
  · have hlookup := hunchanged member hmember
    split_ifs at hlookup with hkey
    · obtain ⟨b, hb⟩ := hlookup
      have hmem : ("enabled", member.2) ∈ config.members := hkey ▸ hmember
      rw [readEnabled_set_of_mem config.distinct hmem, hkey, hb]
      rfl
    · rwa [lookup_renewalConfig_of_ne hkey]
  · rw [hafter, hbefore, Option.bind_some, Option.bind_some]
    by_cases henabled : key = "enabled"
    · rw [henabled] at hkey ⊢
      rw [readEnabled_set_of_notMem hkey]
    · exact lookup_renewalConfig_of_ne henabled

variable (db config) in
/-- A configuration is kept exactly if it changes nothing but whether renewal is enabled. -/
theorem autoRenewal_kept_iff : Kept db config ↔ Unchanged db config :=
  ⟨unchanged_of_kept, kept_of_unchanged⟩

def moreDays : Fields Empty := ⟨[("days_before_expiry", .integer 60)], by decide⟩

theorem moreDays_not_kept : ¬Kept (fun _ => none) moreDays := by
  intro h
  obtain ⟨after, hafter, hreturned⟩ := h.returned
  have hdays : getRenewalConfig (setRenewalConfig (fun _ => none) moreDays.members) =
      (some (renewalConfig false 30 (.array [.text "scep", .text "acme", .text "est"])) :
        Option (JsonMembers Empty)) := rfl
  cases hdays.symm.trans hafter
  have hsixty := hreturned ("days_before_expiry", .integer 60) (List.mem_singleton_self _)
  have hthirty : (some (.integer 30) : Option (JsonTree Empty)) = some (.integer 60) := hsixty
  simp at hthirty

end AutoRenewalService

end CaManager
