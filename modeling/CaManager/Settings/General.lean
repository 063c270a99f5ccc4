import CaManager.Accounts.Authentication
import CaManager.Library.JsonTrees
import CaManager.Library.Texts

/-!
# General settings

The settings are rows of texts. The route that updates them writes any JSON value as its text,
whatever the setting is; the route that returns them reads some texts as integers and one as a
Boolean, and never returns the password. The session checks read two of the rows for themselves. A
value of the kind that its setting has is read back by all of them, and no other value is.
-/

namespace CaManager

open Library

/-- How the language writes what JSON writes otherwise. -/
class StrLibrary (F : Type) where
  strFloat : F → String
  reprText : String → String

abbrev ConfigTable := String → Option (Option String)

def ConfigTable.texts (config : ConfigTable) (key : String) : Option String := (config key).join

namespace GeneralSettings

variable {F : Type}

section Texts

variable [StrLibrary F]

mutual

/-- `repr` -/
def repr : JsonTree F → String
  | .null => "None"
  | .bool b => if b then "True" else "False"
  | .integer z => String.ofList (writeInt 10 z)
  | .float x => StrLibrary.strFloat x
  | .text s => StrLibrary.reprText F s
  | .array [] => "[]"
  | .array (e :: es) => "[" ++ repr e ++ reprElements es ++ "]"
  | .object [] => "\x7b\x7d"
  | .object ((k, v) :: ms) =>
    "\x7b" ++ StrLibrary.reprText F k ++ ": " ++ repr v ++ reprMembers ms ++ "\x7d"

def reprElements : List (JsonTree F) → String
  | [] => ""
  | e :: es => ", " ++ repr e ++ reprElements es

def reprMembers : List (String × JsonTree F) → String
  | [] => ""
  | (k, v) :: ms => ", " ++ StrLibrary.reprText F k ++ ": " ++ repr v ++ reprMembers ms

end

/-- `str` -/
def str : JsonTree F → String
  | .text s => s
  | v => repr v

/-- What is stored for a value: its text, in lower case for a Boolean, and null for null. -/
def storedText : JsonTree F → Option String
  | .bool b => some (if b then "true" else "false")
  | .null => none
  | v => some (str v)

end Texts

/-- `get_config` -/
def getConfig (config : ConfigTable) (key default : String) : Option String :=
  match config key with
  | some value => value
  | none => some default

/-- `set_config` -/
def setConfig (config : ConfigTable) (key : String) (value : Option String) : ConfigTable :=
  fun k => if k = key then some value else config k

/-- How `get_general_settings` reads a setting. -/
inductive Kind
  | text (default : String)
  | flag
  | number (default : ℤ)
  | secret
  deriving DecidableEq

structure Setting where
  key : String
  kind : Kind
  deriving DecidableEq

def siteName : Setting := ⟨"site_name", .text "UCM"⟩

def timezone : Setting := ⟨"timezone", .text "UTC"⟩

def autoBackupEnabled : Setting := ⟨"auto_backup_enabled", .flag⟩

def backupFrequency : Setting := ⟨"backup_frequency", .text "daily"⟩

def backupRetentionDays : Setting := ⟨"backup_retention_days", .number 30⟩

def backupPassword : Setting := ⟨"backup_password", .secret⟩

def sessionTimeout : Setting := ⟨"session_timeout", .number 28800⟩

def sessionMaxLifetime : Setting := ⟨"session_max_lifetime", .number 86400⟩

def maxLoginAttempts : Setting := ⟨"max_login_attempts", .number 5⟩

def lockoutDuration : Setting := ⟨"lockout_duration", .number 300⟩

def settings : List Setting :=
  [siteName, timezone, autoBackupEnabled, backupFrequency, backupRetentionDays, backupPassword,
    sessionTimeout, sessionMaxLifetime, maxLoginAttempts, lockoutDuration]

def allowedKeys : List String := settings.map Setting.key

def Setting.read (s : Setting) (config : ConfigTable) : Option (JsonTree F) :=
  match s.kind with
  | .text default => some (((getConfig config s.key default).map JsonTree.text).getD .null)
  | .flag => some (.bool (getConfig config s.key "false" = some "true"))
  | .number default =>
    (getConfig config s.key (String.ofList (writeInt 10 default))).bind fun text =>
      (readInt 10 text.toList).map JsonTree.integer
  | .secret => some (.text "")

/-- `get_general_settings` -/
def getGeneralSettings (config : ConfigTable) : Option (List (String × JsonTree F)) :=
  settings.mapM fun s => (s.read config).map fun value => (s.key, value)

section Updates

variable [FloatText F] [StrLibrary F]

def writeSetting (members : JsonMembers F) (config : ConfigTable) (key : String) : ConfigTable :=
  match JsonTree.lookup key members with
  | some value => setConfig config key (storedText value)
  | none => config

/-- `update_general_settings`, unless it raises. Keys can also be looked for in an array and in a
text, but values can only be taken from an object. -/
def updateGeneralSettings (config : ConfigTable) (data : JsonTree F) : Option ConfigTable :=
  if data.truthy = false then some config
  else
    match data with
    | .object members => some (allowedKeys.foldl (writeSetting members) config)
    | .array es => if allowedKeys.any fun key => es.any (JsonTree.isText key) then none
        else some config
    | .text t => if allowedKeys.any fun key => occursIn key t then none else some config
    | _ => none

def afterUpdate (config : ConfigTable) (data : JsonTree F) : ConfigTable :=
  (updateGeneralSettings config data).getD config

def afterUpdates (bodies : List (JsonTree F)) : ConfigTable :=
  bodies.foldl afterUpdate fun _ => none

end Updates

def valueIn (key : String) : JsonTree F → Option (JsonTree F)
  | .object members => JsonTree.lookup key members
  | _ => none

def lastAccepted (key : String) (bodies : List (JsonTree F)) : Option (JsonTree F) :=
  bodies.foldl (fun last body => (valueIn key body).or last) none

def Setting.default (s : Setting) : JsonTree F :=
  match s.kind with
  | .text default => .text default
  | .flag => .bool false
  | .number default => .integer default
  | .secret => .text ""

/-- Is the value of the kind that the setting has? A password may be any value. -/
def Kind.fits : Kind → JsonTree F → Bool
  | .text _, .text _ | .text _, .null | .flag, .bool _ | .number _, .integer _ | .secret, _ => true
  | _, _ => false

def Setting.Fits (s : Setting) (value : JsonTree F) : Prop := s.kind.fits value = true

instance (s : Setting) (value : JsonTree F) : Decidable (s.Fits value) :=
  inferInstanceAs (Decidable (_ = true))

def Setting.shown (s : Setting) (value : JsonTree F) : JsonTree F :=
  if s.kind = .secret then .text "" else value

section Reading

variable {config : ConfigTable}

theorem read_eq_default {s : Setting} (hrow : config s.key = none) :
    (s.read config : Option (JsonTree F)) = some s.default := by
  obtain ⟨key, kind⟩ := s
  simp only at hrow
  cases kind <;> simp [Setting.read, Setting.default, getConfig, hrow, readInt_writeInt]

variable [StrLibrary F]

theorem read_eq_shown_iff {s : Setting} {value : JsonTree F}
    (hrow : config s.key = some (storedText value)) :
    s.read config = some (s.shown value) ↔ s.Fits value := by
  obtain ⟨key, kind⟩ := s
  simp only at hrow
  cases kind with
  | text default =>
    cases value <;> simp [Setting.read, Setting.shown, Setting.Fits, Kind.fits, getConfig, hrow, storedText,
      str]
  | flag =>
    cases value with
    | bool b =>
      cases b <;> simp [Setting.read, Setting.shown, Setting.Fits, Kind.fits, getConfig, hrow, storedText]
    | null | integer | float | text | array | object =>
      simp [Setting.read, Setting.shown, Setting.Fits, Kind.fits]
  | number default =>
    cases value with
    | integer z =>
      simp [Setting.read, Setting.shown, Setting.Fits, Kind.fits, getConfig, hrow, storedText, str, repr,
        readInt_writeInt]
    | null | bool | float | text | array | object =>
      simp [Setting.read, Setting.shown, Setting.Fits, Kind.fits, Option.bind_eq_some_iff]
  | secret => simp [Setting.read, Setting.shown, Setting.Fits, Kind.fits]

end Reading

section Rows

variable [StrLibrary F] {config : ConfigTable} {key : String}

theorem writeSetting_apply (members : JsonMembers F) (config : ConfigTable) (k key : String) :
    writeSetting members config k key =
      if key = k then ((JsonTree.lookup key members).map storedText).or (config key)
      else config key := by
  unfold writeSetting
  by_cases hkey : key = k
  · subst hkey
    cases JsonTree.lookup key members <;> simp [setConfig]
  · cases JsonTree.lookup k members <;> simp [setConfig, hkey]

theorem foldl_writeSetting_apply (members : JsonMembers F) (keys : List String)
    (config : ConfigTable) (key : String) :
    keys.foldl (writeSetting members) config key =
      if key ∈ keys then ((JsonTree.lookup key members).map storedText).or (config key)
      else config key := by
  induction keys generalizing config with
  | nil => simp
  | cons k keys ih =>
    rw [List.foldl_cons, ih, writeSetting_apply]
    by_cases hk : key = k
    · subst hk
      cases JsonTree.lookup key members <;> simp
    · simp [hk]

variable [FloatText F]

theorem afterUpdate_apply (hkey : key ∈ allowedKeys) (config : ConfigTable) (data : JsonTree F) :
    afterUpdate config data key = ((valueIn key data).map storedText).or (config key) := by
  cases data with
  | object members =>
    cases members with
    | nil => rfl
    | cons m members =>
      have htrue : (JsonTree.object (m :: members)).truthy = true := rfl
      rw [afterUpdate, updateGeneralSettings, if_neg (by simp [htrue])]
      simp only [Option.getD_some, foldl_writeSetting_apply, if_pos hkey, valueIn]
  | null | bool | integer | float | text | array =>
    unfold afterUpdate updateGeneralSettings
    dsimp only
    split_ifs <;> rfl

theorem foldl_afterUpdate_apply (hkey : key ∈ allowedKeys) (bodies : List (JsonTree F))
    {last : Option (JsonTree F)} (hlast : config key = last.map storedText) :
    bodies.foldl afterUpdate config key =
      (bodies.foldl (fun last body => (valueIn key body).or last) last).map storedText := by
  induction bodies generalizing config last with
  | nil => exact hlast
  | cons body bodies ih =>
    apply ih
    rw [afterUpdate_apply hkey, hlast, Option.map_or]

theorem afterUpdates_apply (hkey : key ∈ allowedKeys) (bodies : List (JsonTree F)) :
    afterUpdates bodies key = (lastAccepted key bodies).map storedText :=
  foldl_afterUpdate_apply hkey bodies rfl

theorem read_afterUpdates {s : Setting} (hs : s ∈ settings) (bodies : List (JsonTree F))
    (hfits : ∀ value ∈ lastAccepted s.key bodies, s.Fits value) :
    s.read (afterUpdates bodies) = some (s.shown ((lastAccepted s.key bodies).getD s.default)) := by
  have hrow := afterUpdates_apply (List.mem_map_of_mem hs) bodies
  cases hlast : lastAccepted s.key bodies with
  | some value =>
    rw [hlast] at hrow
    exact (read_eq_shown_iff hrow).mpr (hfits value hlast)
  | none =>
    rw [hlast] at hrow
    rw [read_eq_default hrow]
    obtain ⟨key, kind⟩ := s
    cases kind <;> rfl

theorem mapM_map_eq_some {α β : Type} {f : α → Option β} {g : α → β} {l : List α}
    (h : ∀ a ∈ l, f a = some (g a)) : l.mapM f = some (l.map g) := by
  induction l with
  | nil => rfl
  | cons a l ih =>
    rw [List.mapM_cons, h a (List.mem_cons_self ..), ih fun b hb => h b (List.mem_cons_of_mem _ hb)]
    rfl

theorem secondsSetting_eq {s : Setting} {default : ℤ} (hs : s ∈ settings)
    (hkind : s.kind = .number default) (bodies : List (JsonTree F))
    (hfits : ∀ value ∈ lastAccepted s.key bodies, s.Fits value) {st : Accounts}
    (hst : st.settings = (afterUpdates bodies).texts) :
    s.read (afterUpdates bodies) =
      some (.integer (AuthManager.secondsSetting st s.key default) : JsonTree F) := by
  have hrow := afterUpdates_apply (List.mem_map_of_mem hs) bodies
  rw [read_afterUpdates hs bodies hfits, AuthManager.secondsSetting, hst, ConfigTable.texts, hrow]
  obtain ⟨key, kind⟩ := s
  simp only at hkind
  subst hkind
  cases hlast : lastAccepted key bodies with
  | none => rfl
  | some value =>
    have hvalue := hfits value hlast
    cases value with
    | integer z =>
      have hne : String.ofList (writeInt 10 z) ≠ "" := by
        simp [writeInt_ne_nil]
      simp [Setting.shown, storedText, str, repr, Option.filter_some, hne, readInt_writeInt]
    | null | bool | float | text | array | object => cases hvalue

end Rows

/-- After any updates whose last values fit their settings, every setting but the password is
returned with the value that was last accepted for it, or its default, the password never, and the
limits of a session are the returned ones. -/
theorem settings_returned [FloatText F] [StrLibrary F] (bodies : List (JsonTree F))
    (hfits : ∀ s ∈ settings, ∀ value ∈ lastAccepted s.key bodies, s.Fits value) :
    getGeneralSettings (afterUpdates bodies) = some (settings.map fun s =>
        (s.key, s.shown ((lastAccepted s.key bodies).getD s.default))) ∧
      ∀ st : Accounts, st.settings = (afterUpdates bodies).texts →
        sessionTimeout.read (afterUpdates bodies) =
          some (.integer (AuthManager.sessionTimeout st) : JsonTree F) ∧
        sessionMaxLifetime.read (afterUpdates bodies) =
          some (.integer (AuthManager.sessionMaxLifetime st) : JsonTree F) := by
  constructor
  · apply mapM_map_eq_some
    intro s hs
    rw [read_afterUpdates hs bodies (hfits s hs), Option.map_some]
  · intro st hst
    have htimeout : sessionTimeout ∈ settings := by decide
    have hlifetime : sessionMaxLifetime ∈ settings := by decide
    exact ⟨secondsSetting_eq htimeout rfl bodies (hfits _ htimeout) hst,
      secondsSetting_eq hlifetime rfl bodies (hfits _ hlifetime) hst⟩

instance plainTexts : StrLibrary Empty where
  strFloat := Empty.elim
  reprText s := "'" ++ s ++ "'"

def plainUpdates : List (JsonTree Empty) :=
  [.object [("session_timeout", .integer 3600), ("site_name", .text "Lab CA")],
    .object [("session_timeout", .integer 300), ("backup_password", .text "s3cret"),
      ("auto_backup_enabled", .bool true)]]

theorem settings_returned_plainUpdates :
    getGeneralSettings (afterUpdates plainUpdates) = some (settings.map fun s =>
        (s.key, s.shown ((lastAccepted s.key plainUpdates).getD s.default))) ∧
      ∀ st : Accounts, st.settings = (afterUpdates plainUpdates).texts →
        sessionTimeout.read (afterUpdates plainUpdates) =
          some (.integer (AuthManager.sessionTimeout st) : JsonTree Empty) ∧
        sessionMaxLifetime.read (afterUpdates plainUpdates) =
          some (.integer (AuthManager.sessionMaxLifetime st) : JsonTree Empty) := by
  apply settings_returned
  decide

/-- A password that has been accepted is not returned. -/
theorem password_not_returned :
    getGeneralSettings (afterUpdates plainUpdates) ≠ some (settings.map fun s =>
      (s.key, (lastAccepted s.key plainUpdates).getD s.default)) := by
  intro h
  have hsixth := congrArg (fun result => result.map fun members => members[5]?) h
  have hshown : (some (some ("backup_password", .text "")) :
      Option (Option (String × JsonTree Empty))) =
        some (some ("backup_password", .text "s3cret")) := hsixth
  simp at hshown

end GeneralSettings

end CaManager
