import CaManager.Audit.Log
import CaManager.Library.Rfc5424

/-!
# Forwarding the audit log

The rows of the audit log are sent to a remote log server, one message each. A message names the
columns of the row as parameters and has the details as its text. The columns are written into the
message as they are.
-/

namespace CaManager

open Library

structure DateTime.IsDate (t : DateTime) : Prop where
  year : t.year ≤ 9999
  month : 1 ≤ t.month ∧ t.month ≤ 12
  day : 1 ≤ t.day ∧ t.day ≤ 31
  hour : t.hour ≤ 23
  minute : t.minute ≤ 59
  second : t.second ≤ 59
  microsecond : t.microsecond ≤ 999999

/-- `strftime('%Y-%m-%dT%H:%M:%S.%fZ')` -/
def DateTime.zulu (t : DateTime) : String :=
  DateTime.padded 4 t.year ++ "-" ++ DateTime.padded 2 t.month ++ "-" ++ DateTime.padded 2 t.day ++
    "T" ++ DateTime.padded 2 t.hour ++ ":" ++ DateTime.padded 2 t.minute ++ ":" ++
    DateTime.padded 2 t.second ++ "." ++ DateTime.padded 6 t.microsecond ++ "Z"

namespace Syslog

/-- `ALL_CATEGORIES` -/
def allCategories : List String := ["certificate", "ca", "csr", "user", "acme", "scep", "system"]

structure SyslogForwarder where
  enabled : Bool := false
  host : String := ""
  port : ℕ := 514
  protocol : String := "udp"
  tls : Bool := false
  tlsVerify : Bool := true
  categories : List String := allCategories
  deriving Repr, DecidableEq

def configure (enabled : Bool) (host : String) (port : ℕ) (protocol : Option String)
    (tls tlsVerify : Bool) (categories : Option (List String)) : SyslogForwarder :=
  let protocol := ((truthyText protocol).map lower).getD "udp"
  { enabled, host, tlsVerify, protocol
    port := if port = 0 then 514 else port
    tls := tls && protocol = "tcp"
    categories := categories.getD allCategories }

/-- A row, and when it is sent. A row without a time gets that one. -/
structure Entry where
  row : AuditLog
  now : DateTime
  isDate : (row.timestamp.getD now).IsDate

def facility : ℕ := 16

def severity (row : AuditLog) : ℕ := if row.success = some true then 6 else 4

/-- The columns that are named in the message: those with a text, and the success. -/
def sdParams (row : AuditLog) : List (String × String) :=
  ((truthyText (some row.action)).map ("action", ·)).toList ++
    ((truthyText row.username).map ("user", ·)).toList ++
    ((truthyText row.ipAddress).map ("ip", ·)).toList ++
    ((truthyText row.resourceType).map ("resource_type", ·)).toList ++
    ((truthyText row.resourceId).map ("resource_id", ·)).toList ++
    ((truthyText row.resourceName).map ("resource_name", ·)).toList ++
    [("success", boolText row.success)]

def sdPart (p : String × String) : String := p.1 ++ "=\"" ++ p.2 ++ "\""

def msgText (row : AuditLog) : String := (truthyText row.details).getD row.action

def message (e : Entry) : String :=
  "<" ++ AuditLog.idText (facility * 8 + severity e.row) ++ ">1 " ++
    (e.row.timestamp.getD e.now).zulu ++ " - UCM - - [ucm@0 " ++
    joinText ' ' ((sdParams e.row).map sdPart) ++ "] " ++ msgText e.row

def buildMessage (f : SyslogForwarder) (e : Entry) : Bytes :=
  if f.protocol = "tcp" then encodeText (message e ++ "\n") else encodeText (message e)

/-- Is the row sent? A row of a type that is not among the categories is not. -/
def sends (f : SyslogForwarder) (e : Entry) : Bool :=
  f.enabled && f.host ≠ "" &&
    !(f.categories ≠ [] && e.row.resourceType.getD "" ≠ "" &&
      e.row.resourceType.getD "" ∉ f.categories)

def send (f : SyslogForwarder) (e : Entry) : Bool × Bytes :=
  if sends f e then (true, buildMessage f e) else (false, [])

def stream (f : SyslogForwarder) (es : List Entry) : Bytes := es.flatMap fun e => (send f e).2

def unframed (f : SyslogForwarder) (e : Entry) : Bytes :=
  if f.protocol = "tcp" then (buildMessage f e).dropLast else buildMessage f e

def fields (e : Entry) : Rfc5424.Message :=
  let t := e.row.timestamp.getD e.now
  { facility, severity := severity e.row, version := 1
    timestamp := some ⟨t.year, t.month, t.day, t.hour, t.minute, t.second, t.microsecond, 0⟩
    hostname := none, appName := some "UCM", procId := none, msgId := none
    structuredData := [⟨"ucm@0", sdParams e.row⟩]
    msg := some (msgText e.row) }

/-- The messages are read back as the fields of their rows, and over TCP the stream is framed into
just these messages. -/
structure Encodes (reading : Rfc5424.Reading) (f : SyslogForwarder) (es : List Entry) : Prop where
  recovers : ∀ e ∈ es, sends f e = true → Rfc5424.parse reading (unframed f e) = some (fields e)
  framed : f.protocol = "tcp" →
    Rfc5424.frames (stream f es) = ((es.filter (sends f)).map (unframed f), [])

/-- The texts of a row that need no escapes, do not begin with a mark that would be taken off, and
over TCP have no line feeds. -/
structure Harmless (reading : Rfc5424.Reading) (f : SyslogForwarder) (e : Entry) : Prop where
  plain : ∀ p ∈ sdParams e.row, Rfc5424.Plain reading.brackets p.2.toList
  noMark : reading.stripsMark = true → (msgText e.row).toList.head? ≠ some '\ufeff'
  noLineFeed : f.protocol = "tcp" →
    (∀ p ∈ sdParams e.row, '\n' ∉ p.2.toList) ∧ '\n' ∉ (msgText e.row).toList

section Messages

variable {reading : Rfc5424.Reading} {f : SyslogForwarder} {e : Entry}

open Rfc5424 (renderParams renderParam IsName zeroPadded)

def stamp (t : DateTime) : Rfc5424.Timestamp :=
  ⟨t.year, t.month, t.day, t.hour, t.minute, t.second, t.microsecond, 0⟩

theorem toList_zulu (t : DateTime) : t.zulu.toList = (stamp t).zulu := by
  simp [DateTime.zulu, DateTime.padded, stamp, Rfc5424.Timestamp.zulu, zeroPadded]

theorem inRange_stamp {t : DateTime} (ht : t.IsDate) : (stamp t).InRange :=
  ⟨ht.year, ht.month, ht.day, ht.hour, ht.minute, ht.second, ht.microsecond, rfl⟩

theorem toList_sdPart (p : String × String) : (sdPart p).toList = renderParam p := by
  simp [sdPart, renderParam]

theorem renderParams_eq_joinText {ps : List (String × String)} (hps : ps ≠ []) :
    ' ' :: (joinText ' ' (ps.map sdPart)).toList = renderParams ps := by
  induction ps with
  | nil => exact absurd rfl hps
  | cons p ps ih =>
    cases ps with
    | nil => simp [joinText, renderParams, toList_sdPart]
    | cons q ps =>
      have hrest := ih (List.cons_ne_nil _ _)
      rw [List.map_cons] at hrest
      rw [List.map_cons, List.map_cons, toList_joinText_cons_cons, hrest, toList_sdPart,
        ← List.cons_append]
      rfl

theorem sdParams_ne_nil (row : AuditLog) : sdParams row ≠ [] :=
  List.append_ne_nil_of_right_ne_nil _ (List.cons_ne_nil _ _)

theorem mem_sdParams {row : AuditLog} {p : String × String} (hp : p ∈ sdParams row) :
    p.1 ∈ ["action", "user", "ip", "resource_type", "resource_id", "resource_name", "success"] := by
  simp only [sdParams, List.mem_append, Option.mem_toList, Option.map_eq_some_iff,
    List.mem_singleton] at hp
  rcases hp with (((((⟨_, _, rfl⟩ | ⟨_, _, rfl⟩) | ⟨_, _, rfl⟩) | ⟨_, _, rfl⟩) | ⟨_, _, rfl⟩) |
    ⟨_, _, rfl⟩) | rfl
  all_goals simp

theorem isName_sdParams {row : AuditLog} : ∀ p ∈ sdParams row, IsName p.1 := by
  have hnames : ∀ name ∈ ["action", "user", "ip", "resource_type", "resource_id",
      "resource_name", "success"], IsName name := by
    intro name hname
    simp only [List.mem_cons, List.not_mem_nil, or_false] at hname
    rcases hname with rfl | rfl | rfl | rfl | rfl | rfl | rfl
    all_goals exact ⟨by decide, by decide, List.all_eq_true.mp rfl⟩
  exact fun p hp => hnames _ (mem_sdParams hp)

theorem toList_message (e : Entry) : (message e).toList =
    '<' :: (Nat.toDigits 10 (facility * 8 + severity e.row) ++ '>' :: '1' :: ' ' ::
      ((stamp (e.row.timestamp.getD e.now)).zulu ++ ' ' :: '-' :: ' ' :: 'U' :: 'C' :: 'M' ::
        ' ' :: '-' :: ' ' :: '-' :: ' ' :: '[' :: ("ucm@0".toList ++
          (renderParams (sdParams e.row) ++ ']' :: ' ' :: (msgText e.row).toList)))) := by
  rw [← renderParams_eq_joinText (sdParams_ne_nil e.row), ← toList_zulu]
  simp [message, AuditLog.idText]

theorem severity_cases (row : AuditLog) : severity row = 6 ∨ severity row = 4 := by
  unfold severity
  split_ifs
  · exact .inl rfl
  · exact .inr rfl

theorem readNumber_pri (row : AuditLog) (cs : List Char) :
    Rfc5424.readNumber 3 (Nat.toDigits 10 (facility * 8 + severity row) ++ '>' :: cs) =
      some (facility * 8 + severity row, '>' :: cs) := by
  rcases severity_cases row with h | h
  · rw [h]
    rfl
  · rw [h]
    rfl

theorem readMessage_message (reading : Rfc5424.Reading) (e : Entry) :
    Rfc5424.readMessage reading (message e).toList =
      (Rfc5424.readStructuredData reading.brackets ('[' :: ("ucm@0".toList ++
        (renderParams (sdParams e.row) ++ ']' :: ' ' :: (msgText e.row).toList)))).bind fun x =>
          (Rfc5424.readMsg reading.stripsMark x.2).bind fun msg =>
            some { fields e with structuredData := x.1, msg } := by
  have htimestamp : ∀ cs, Rfc5424.readTimestamp ((stamp (e.row.timestamp.getD e.now)).zulu ++ cs) =
      some (some (stamp (e.row.timestamp.getD e.now)), cs) :=
    fun _ => Rfc5424.readTimestamp_zulu (inRange_stamp e.isDate)
  have hpri : (facility * 8 + severity e.row) / 8 = facility ∧
      (facility * 8 + severity e.row) % 8 = severity e.row ∧
      facility * 8 + severity e.row ≤ 191 := by
    rcases severity_cases e.row with h | h
    · rw [h]
      decide
    · rw [h]
      decide
  have hversion : ∀ cs, Rfc5424.readNumber 3 ('1' :: ' ' :: cs) = some (1, ' ' :: cs) :=
    fun _ => rfl
  have hnone : ∀ most cs, 1 ≤ most →
      Rfc5424.readWord most ('-' :: ' ' :: cs) = some (none, ' ' :: cs) := by
    intro most cs hmost
    exact (if_pos ⟨List.cons_ne_nil _ _, hmost⟩).trans rfl
  have happName : ∀ cs, Rfc5424.readWord 48 ('U' :: 'C' :: 'M' :: ' ' :: cs) =
      some (some "UCM", ' ' :: cs) := fun _ => rfl
  rw [toList_message, Rfc5424.readMessage_of_header (readNumber_pri e.row _) (hversion _)
    (htimestamp _) (hnone 255 _ (by decide)) (happName _) (hnone 128 _ (by decide))
    (hnone 32 _ (by decide))]
  simp only [hpri.1, hpri.2.1, hpri.2.2, le_refl, and_self, if_true]
  rfl

/-- A message is read back as the fields of its row exactly if no text needs an escape or begins
with a mark that is taken off. -/
theorem readMessage_iff : Rfc5424.readMessage reading (message e).toList = some (fields e) ↔
    (∀ p ∈ sdParams e.row, Rfc5424.Plain reading.brackets p.2.toList) ∧
      (reading.stripsMark = true → (msgText e.row).toList.head? ≠ some '\ufeff') := by
  have hid : IsName "ucm@0" := ⟨by decide, by decide, List.all_eq_true.mp rfl⟩
  have hdata : ∀ rest', Rfc5424.readStructuredData reading.brackets ('[' :: ("ucm@0".toList ++
      (renderParams (sdParams e.row) ++ ']' :: ' ' :: (msgText e.row).toList))) =
        some ([⟨"ucm@0", sdParams e.row⟩], rest') ↔
          (∀ p ∈ sdParams e.row, Rfc5424.Plain reading.brackets p.2.toList) ∧
            rest' = ' ' :: (msgText e.row).toList :=
    fun rest' => Rfc5424.readStructuredData_iff hid isName_sdParams
  rw [readMessage_message, ← Rfc5424.readMsg_iff]
  constructor
  · intro h
    obtain ⟨⟨elements, rest'⟩, hread, h⟩ := Option.bind_eq_some_iff.mp h
    obtain ⟨msg, hmsg, h⟩ := Option.bind_eq_some_iff.mp h
    have hfields := Option.some.inj h
    have helements : elements = [⟨"ucm@0", sdParams e.row⟩] :=
      congrArg Rfc5424.Message.structuredData hfields
    have hmsgText : msg = some (msgText e.row) := congrArg Rfc5424.Message.msg hfields
    obtain ⟨hplain, rfl⟩ := (hdata rest').mp (helements ▸ hread)
    exact ⟨hplain, hmsgText ▸ hmsg⟩
  · rintro ⟨hplain, hmsg⟩
    rw [(hdata _).mpr ⟨hplain, rfl⟩, Option.bind_some, hmsg]
    rfl

theorem lineFeed_mem_message : '\n' ∈ (message e).toList ↔
    (∃ p ∈ sdParams e.row, '\n' ∈ p.2.toList) ∨ '\n' ∈ (msgText e.row).toList := by
  have hpri : '\n' ∉ Nat.toDigits 10 (facility * 8 + severity e.row) := by
    intro h
    exact absurd (Nat.isDigit_of_mem_toDigits (by decide) (by decide) h) (by decide)
  have hid : '\n' ∉ "ucm@0".toList := by decide
  simp only [toList_message, List.mem_cons, List.mem_append, hpri, hid,
    Rfc5424.lineFeed_notMem_zulu, Rfc5424.lineFeed_mem_renderParams isName_sdParams,
    (by decide : '\n' ≠ '<'), (by decide : '\n' ≠ '>'), (by decide : '\n' ≠ '1'),
    (by decide : '\n' ≠ ' '), (by decide : '\n' ≠ '-'), (by decide : '\n' ≠ 'U'),
    (by decide : '\n' ≠ 'C'), (by decide : '\n' ≠ 'M'), (by decide : '\n' ≠ '['),
    (by decide : '\n' ≠ ']'), false_or]

theorem buildMessage_tcp (hf : f.protocol = "tcp") :
    buildMessage f e = encodeText (message e) ++ [10] := by
  rw [buildMessage, if_pos hf, Rfc5424.encodeText_append]
  rfl

theorem unframed_eq : unframed f e = encodeText (message e) := by
  unfold unframed
  split_ifs with hf
  · rw [buildMessage_tcp hf, List.dropLast_concat]
  · rw [buildMessage, if_neg hf]

theorem stream_eq (hf : f.protocol = "tcp") (es : List Entry) :
    stream f es = ((es.filter (sends f)).map (unframed f)).flatMap fun m => m ++ [10] := by
  induction es with
  | nil => rfl
  | cons e es ih =>
    rw [stream, List.flatMap_cons, ← stream, ih, send, List.filter_cons]
    split_ifs
    · rw [List.map_cons, List.flatMap_cons, buildMessage_tcp hf, unframed_eq]
    · rfl

/-- Every row that is sent is recovered, and over TCP framed, exactly if the texts of every row
that is sent are harmless. -/
theorem encodes_iff (reading : Rfc5424.Reading) (f : SyslogForwarder) (es : List Entry) :
    Encodes reading f es ↔ ∀ e ∈ es, sends f e = true → Harmless reading f e := by
  have hparse : ∀ e, Rfc5424.parse reading (unframed f e) = some (fields e) ↔
      (∀ p ∈ sdParams e.row, Rfc5424.Plain reading.brackets p.2.toList) ∧
        (reading.stripsMark = true → (msgText e.row).toList.head? ≠ some '\ufeff') := by
    intro e
    rw [Rfc5424.parse, unframed_eq, decodeText_encodeText, Option.bind_some, readMessage_iff]
  have hfeed : ∀ e, 10 ∉ unframed f e ↔
      (∀ p ∈ sdParams e.row, '\n' ∉ p.2.toList) ∧ '\n' ∉ (msgText e.row).toList := by
    intro e
    rw [unframed_eq, Rfc5424.lineFeed_mem_encodeText, lineFeed_mem_message, not_or]
    simp only [not_exists, not_and]
  have hframed : f.protocol = "tcp" → (Rfc5424.frames (stream f es) =
      ((es.filter (sends f)).map (unframed f), []) ↔
        ∀ e ∈ es, sends f e = true → 10 ∉ unframed f e) := by
    intro hf
    rw [stream_eq hf, Rfc5424.frames_iff]
    simp only [List.forall_mem_map, List.mem_filter, and_imp]
  constructor
  · intro h e he hsent
    obtain ⟨hplain, hmark⟩ := (hparse e).mp (h.recovers e he hsent)
    exact ⟨hplain, hmark, fun hf =>
      (hfeed e).mp ((hframed hf).mp (h.framed hf) e he hsent)⟩
  · intro h
    refine ⟨fun e he hsent => ?_, fun hf => (hframed hf).mpr fun e he hsent => ?_⟩
    · have hharmless := h e he hsent
      exact (hparse e).mpr ⟨hharmless.plain, hharmless.noMark⟩
    · exact (hfeed e).mpr ((h e he hsent).noLineFeed hf)

end Messages

section Sample

def quoted : Entry where
  row := { timestamp := some ⟨2026, 3, 1, 12, 0, 0, 5⟩, username := some "admin",
           action := "cert_issue", resourceName := some "a\"b" }
  now := ⟨2026, 3, 1, 12, 0, 1, 0⟩
  isDate := by constructor <;> decide

def twoLines : Entry where
  row := { timestamp := some ⟨2026, 3, 1, 12, 0, 0, 5⟩, username := some "admin",
           action := "ca_import", details := some "first\nsecond" }
  now := ⟨2026, 3, 1, 12, 0, 1, 0⟩
  isDate := by constructor <;> decide

/-- A quote ends the value before its end, and a line feed the message, even for a reader that
lets brackets pass and keeps marks. -/
theorem quote_and_lineFeed :
    ¬Encodes ⟨true, false⟩ { enabled := true, host := "log", protocol := "udp" } [quoted] ∧
    ¬Encodes ⟨true, false⟩ { enabled := true, host := "log", protocol := "tcp" } [twoLines] := by
  constructor
  · intro h
    have hrecovers := h.recovers quoted List.mem_cons_self (by decide)
    rw [Rfc5424.parse, unframed_eq, decodeText_encodeText, Option.bind_some] at hrecovers
    exact absurd hrecovers (by decide +kernel)
  · intro h
    exact absurd (h.framed rfl) (by decide +kernel)

end Sample

end Syslog

end CaManager
