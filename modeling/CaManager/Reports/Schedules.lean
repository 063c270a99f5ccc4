import CaManager.Library.Calendar
import CaManager.Notifications.ExpiryAlerts
import CaManager.Scheduler.Interleavings

/-!
# Scheduled reports

A task of the scheduler sends the reports that are due: those whose time of the day, to the minute,
is that at which the task reads the clock, and whose day it is. The scheduler starts the task anew a
minute and more after the last start. So no report is sent twice in a period, and none is sent whose
minute no start falls in.
-/

namespace CaManager

open Library Notifications

namespace Reports

open Scheduler

inductive ReportKey
  | certificateInventory
  | expiringCertificates
  | caHierarchy
  | auditSummary
  | complianceStatus
  | executivePdf
  deriving Repr, DecidableEq

inductive Frequency
  | daily
  | weekly
  | monthly
  deriving Repr, DecidableEq

/-- A configured schedule; what it does not set has a default. -/
structure ReportSchedule where
  enabled : Bool := false
  frequency : Option Frequency := none
  time : Option String := none
  dayOfWeek : Option ℤ := none
  dayOfMonth : Option ℤ := none
  recipients : List String := []
  deriving Repr, DecidableEq

namespace ReportSchedule

def freq (sched : ReportSchedule) : Frequency := sched.frequency.getD .weekly

def schedTime (sched : ReportSchedule) : String := sched.time.getD "08:00"

def weekdayOf (sched : ReportSchedule) : ℤ := sched.dayOfWeek.getD 1

def domOf (sched : ReportSchedule) : ℤ := sched.dayOfMonth.getD 1

end ReportSchedule

/-- The schedules that are stored. A row that is missing, empty or not readable is none. -/
abbrev Configs := ReportKey → Option ReportSchedule

section Instants

def minuteOf (t : ℤ) : ℤ := t / seconds 60

def dayOf (t : ℤ) : ℤ := minuteOf t / 1440

/-- `strftime('%H:%M')` -/
def hourMinute (t : ℤ) : String := clockText (minuteOf t % 1440).toNat

/-- `strftime('%Y-%m-%d')` -/
def dateText (t : ℤ) : String :=
  let date := dateOf (dayOf t)
  s!"{date.year}-" ++ String.ofList (twoDigits date.month ++ '-' :: twoDigits date.day)

end Instants

section Sending

/-- What sending depends on: the settings, whether the mail server takes a message for a recipient,
and whether a report can be generated. -/
structure Delivery where
  config : Option SmtpConfig
  server : String → ℤ → Except String Unit
  generate : ReportKey → ℤ → Except String Unit

def reportTypes : List (ReportKey × String) :=
  [(.certificateInventory, "Certificate Inventory"),
    (.expiringCertificates, "Expiring Certificates"),
    (.caHierarchy, "CA Hierarchy"),
    (.auditSummary, "Audit Summary"),
    (.complianceStatus, "Compliance Status")]

/-- A report is generated and mailed to each recipient. Failures are logged. -/
def mailReport (env : Delivery) (key : ReportKey) (subject : String) (recipients : List String)
    (now : ℤ) : List NotificationLog :=
  match env.generate key now with
  | .error _ => []
  | .ok _ =>
    recipients.flatMap fun recipient =>
      (sendEmail env.config (env.server recipient now)
        { recipients := [recipient], subject, notificationType := "report" }
        (now / seconds 1)).2

def sendScheduledReport (env : Delivery) (key : ReportKey) (recipients : List String) (now : ℤ) :
    List NotificationLog :=
  match reportTypes.lookup key with
  | none => []
  | some name => mailReport env key s!"UCM Report: {name} - {dateText now}" recipients now

def sendScheduledPdfReport (env : Delivery) (recipients : List String) (now : ℤ) :
    List NotificationLog :=
  mailReport env .executivePdf s!"UCM Executive Report - {dateText now}" recipients now

/-- A report that was sent, at what instant, and what was noted of its messages. -/
structure Sending where
  report : ReportKey
  instant : ℤ
  messages : List NotificationLog
  deriving Repr, DecidableEq

def sendReport (env : Delivery) (key : ReportKey) (recipients : List String) (now : ℤ) :
    Sending where
  report := key
  instant := now
  messages :=
    match key with
    | .executivePdf => sendScheduledPdfReport env recipients now
    | key => sendScheduledReport env key recipients now

/-- One turn of the loop of `run_scheduled_reports`. -/
def runReport (env : Delivery) (configs : Configs) (now : ℤ) (key : ReportKey) : List Sending :=
  match configs key with
  | none => []
  | some sched =>
    if sched.enabled = false then []
    else if sched.recipients = [] then []
    else if hourMinute now ≠ sched.schedTime then []
    else if sched.freq = .weekly ∧ weekday (dayOf now) ≠ sched.weekdayOf then []
    else if sched.freq = .monthly ∧ ((dateOf (dayOf now)).day : ℤ) ≠ sched.domOf then []
    else [sendReport env key sched.recipients now]

def reportKeys : List ReportKey :=
  [.certificateInventory, .expiringCertificates, .caHierarchy, .auditSummary, .complianceStatus,
    .executivePdf]

def runScheduledReports (env : Delivery) (configs : Configs) (now : ℤ) : List Sending :=
  reportKeys.flatMap (runReport env configs now)

end Sending

section Runs

def appTasks : List (String × ℤ) :=
  [("crl_auto_regen", 3600), ("audit_log_cleanup", 86400), ("cert_expiry_alerts", 86400),
    ("acme_auto_renewal", 21600), ("ski_aki_backfill", 3600), ("cert_auto_renewal", 43200),
    ("ocsp_cache_cleanup", 86400), ("update_check", 86400), ("discovery_scan", 60),
    ("scheduled_reports", 60), ("session_cleanup", 900)]

def startup (clock : ℤ) : State := registered clock 60 appTasks

/-- When the task for scheduled reports started and read the clock. The last time comes first. -/
def readings (s : State) : List ℤ :=
  (s.history.starts.filter fun x => x.name = "scheduled_reports").map Start.instant

def reportsSent (env : Delivery) (configs : Configs) (s : State) : List Sending :=
  (readings s).flatMap (runScheduledReports env configs)

inductive Period
  | day (d : ℤ)
  | week (w : ℤ)
  | month (y : ℤ) (m : ℕ)
  deriving Repr, DecidableEq

def periodOf (f : Frequency) (t : ℤ) : Period :=
  match f with
  | .daily => .day (dayOf t)
  | .weekly => .week (weekOf (dayOf t))
  | .monthly => .month (dateOf (dayOf t)).year (dateOf (dayOf t)).month

/-- The period that `u` is in lies within the time from one instant to the other. -/
def LiesWithin (f : Frequency) (u start stop : ℤ) : Prop :=
  ∀ t, periodOf f t = periodOf f u → start ≤ t ∧ t < stop

/-- Each enabled report was sent exactly once in each period that lies within the run. -/
def SentOncePerPeriod (env : Delivery) (configs : Configs) (start : ℤ) (s : State) : Prop :=
  ∀ key sched, configs key = some sched → sched.enabled = true →
    ∀ u, LiesWithin sched.freq u start s.clock →
      ((reportsSent env configs s).countP fun x =>
        x.report = key ∧ periodOf sched.freq x.instant = periodOf sched.freq u) = 1

/-- The minute is the one that is configured for a period. A period has none if its month does not
have the day, or the time is not that of a clock. -/
def ReportSchedule.ConfiguredMinute (sched : ReportSchedule) (p : Period) (minute : ℤ) : Prop :=
  clockText (minute % 1440).toNat = sched.schedTime ∧
    match p with
    | .day d => minute / 1440 = d
    | .week w => (0 ≤ sched.weekdayOf ∧ sched.weekdayOf ≤ 6) ∧
        minute / 1440 = 7 * w + sched.weekdayOf - 3
    | .month y m => (1 ≤ sched.domOf ∧ sched.domOf ≤ monthLength y m) ∧
        minute / 1440 = beforeMonth y m + sched.domOf

/-- Each enabled report has recipients, and in each period that lies within the run the task
started in the configured minute. -/
def MinutesMet (configs : Configs) (start : ℤ) (s : State) : Prop :=
  ∀ key sched, configs key = some sched → sched.enabled = true →
    ∀ u, LiesWithin sched.freq u start s.clock →
      sched.recipients ≠ [] ∧
        ∃ minute, sched.ConfiguredMinute (periodOf sched.freq u) minute ∧
          ∃ t ∈ readings s, minuteOf t = minute

end Runs

instance (sched : ReportSchedule) (p : Period) (minute : ℤ) :
    Decidable (sched.ConfiguredMinute p minute) :=
  match p with
  | .day _ => inferInstanceAs (Decidable (_ ∧ _))
  | .week _ => inferInstanceAs (Decidable (_ ∧ _))
  | .month _ _ => inferInstanceAs (Decidable (_ ∧ _))

section Dues

variable {sched : ReportSchedule} {key : ReportKey} {env : Delivery} {configs : Configs} {p : Period}
  {t u minute minute' : ℤ}

def ReportSchedule.IsDue (sched : ReportSchedule) (t : ℤ) : Prop :=
  hourMinute t = sched.schedTime ∧
    (sched.freq = .weekly → weekday (dayOf t) = sched.weekdayOf) ∧
    (sched.freq = .monthly → ((dateOf (dayOf t)).day : ℤ) = sched.domOf)

instance (sched : ReportSchedule) (t : ℤ) : Decidable (sched.IsDue t) :=
  inferInstanceAs (Decidable (_ ∧ _ ∧ _))

theorem runReport_eq (hsched : configs key = some sched) (henabled : sched.enabled = true) :
    runReport env configs t key =
      if sched.recipients ≠ [] ∧ sched.IsDue t then [sendReport env key sched.recipients t]
      else [] := by
  unfold runReport
  rw [hsched]
  dsimp only
  rw [if_neg (by simp [henabled])]
  by_cases hrecipients : sched.recipients = []
  · rw [if_pos hrecipients, if_neg fun h => h.1 hrecipients]
  · rw [if_neg hrecipients]
    by_cases hdue : sched.IsDue t
    · rw [if_neg (not_not_intro hdue.1), if_neg fun h => h.2 (hdue.2.1 h.1),
        if_neg fun h => h.2 (hdue.2.2 h.1), if_pos ⟨hrecipients, hdue⟩]
    · rw [if_neg fun h : sched.recipients ≠ [] ∧ sched.IsDue t => hdue h.2]
      split_ifs with htime hweek hmonth
      · rfl
      · rfl
      · rfl
      · refine absurd ⟨not_not.mp htime, fun h => ?_, fun h => ?_⟩ hdue
        · exact by_contra fun hne => hweek ⟨h, hne⟩
        · exact by_contra fun hne => hmonth ⟨h, hne⟩

theorem isDue_iff : sched.IsDue t ∧ periodOf sched.freq t = periodOf sched.freq u ↔
    sched.ConfiguredMinute (periodOf sched.freq u) (minuteOf t) := by
  unfold ReportSchedule.IsDue ReportSchedule.ConfiguredMinute
  rw [and_assoc]
  refine and_congr_right fun _ => ?_
  cases sched.freq with
  | daily => simp [periodOf, dayOf]
  | weekly =>
    have hweek := weekOf_weekday_iff (d := dayOf t) (w := weekOf (dayOf u)) (n := sched.weekdayOf)
    simp only [periodOf, Period.week.injEq, reduceCtorEq, false_implies, and_true, true_implies]
    rw [and_comm]
    exact hweek
  | monthly =>
    have hdate := date_iff (d := dayOf t) (y := (dateOf (dayOf u)).year)
      (m := (dateOf (dayOf u)).month) (k := sched.domOf)
    simp only [periodOf, Period.month.injEq, reduceCtorEq, false_implies, true_and, true_implies]
    rw [and_comm]
    exact hdate

theorem configuredMinute_unique (h : sched.ConfiguredMinute p minute)
    (h' : sched.ConfiguredMinute p minute') : minute = minute' := by
  have hclock := clockText_inj (by omega) (by omega) (h.1.trans h'.1.symm)
  have hday : minute / 1440 = minute' / 1440 := by
    cases p with
    | day d => exact h.2.trans h'.2.symm
    | week w => exact h.2.2.trans h'.2.2.symm
    | month y m => exact h.2.2.trans h'.2.2.symm
  omega

end Dues

section Counts

variable {sched : ReportSchedule} {key key' : ReportKey} {env : Delivery} {configs : Configs}
  {t u : ℤ} {x : Sending} {s : State}

theorem of_mem_runReport (hx : x ∈ runReport env configs t key) : x.report = key ∧ x.instant = t := by
  unfold runReport at hx
  cases hconfig : configs key with
  | none =>
    rw [hconfig] at hx
    cases hx
  | some sched =>
    rw [hconfig] at hx
    dsimp only at hx
    split_ifs at hx
    · cases hx
    · cases hx
    · cases hx
    · cases hx
    · cases hx
    · rw [List.mem_singleton.mp hx]
      exact ⟨rfl, rfl⟩

theorem sum_reportKeys {g : ReportKey → ℕ} (hzero : ∀ key' ≠ key, g key' = 0) :
    (reportKeys.map g).sum = g key := by
  cases key <;> simp [reportKeys, hzero]

theorem countP_runScheduledReports (hsched : configs key = some sched)
    (henabled : sched.enabled = true) :
    ((runScheduledReports env configs t).countP fun x =>
      x.report = key ∧ periodOf sched.freq x.instant = periodOf sched.freq u) =
      if sched.recipients ≠ [] ∧ sched.ConfiguredMinute (periodOf sched.freq u) (minuteOf t) then 1
      else 0 := by
  have hother : ∀ key' ≠ key, (runReport env configs t key').countP (fun x =>
      x.report = key ∧ periodOf sched.freq x.instant = periodOf sched.freq u) = 0 := by
    intro key' hne
    rw [List.countP_eq_zero]
    intro x hx hkey
    exact hne ((of_mem_runReport hx).1.symm.trans (of_decide_eq_true hkey).1)
  unfold runScheduledReports
  rw [List.countP_flatMap]
  refine (sum_reportKeys hother).trans ?_
  rw [runReport_eq hsched henabled]
  simp only [← isDue_iff (t := t)]
  by_cases hdue : sched.recipients ≠ [] ∧ sched.IsDue t
  · rw [if_pos hdue, List.countP_singleton]
    simp [hdue.1, hdue.2, sendReport]
  · rw [if_neg hdue, if_neg fun h => hdue ⟨h.1, h.2.1⟩]
    rfl

theorem countP_reportsSent (hsched : configs key = some sched) (henabled : sched.enabled = true) :
    ((reportsSent env configs s).countP fun x =>
      x.report = key ∧ periodOf sched.freq x.instant = periodOf sched.freq u) =
      (readings s).countP fun t =>
        sched.recipients ≠ [] ∧ sched.ConfiguredMinute (periodOf sched.freq u) (minuteOf t) := by
  unfold reportsSent
  induction readings s with
  | nil => rfl
  | cons t ts ih =>
    rw [List.flatMap_cons, List.countP_append, countP_runScheduledReports hsched henabled, ih,
      List.countP_cons, Nat.add_comm]
    simp only [decide_eq_true_eq]

/-- A report is sent exactly once in a period if the task reads the clock in its minute, as the
readings are a minute apart. -/
theorem countP_reportsSent_eq_one_iff (hsched : configs key = some sched)
    (henabled : sched.enabled = true)
    (hapart : (readings s).Pairwise fun later earlier => earlier + seconds 60 ≤ later) :
    ((reportsSent env configs s).countP fun x =>
      x.report = key ∧ periodOf sched.freq x.instant = periodOf sched.freq u) = 1 ↔
      sched.recipients ≠ [] ∧
        ∃ minute, sched.ConfiguredMinute (periodOf sched.freq u) minute ∧
          ∃ t ∈ readings s, minuteOf t = minute := by
  rw [countP_reportsSent hsched henabled]
  by_cases hminute : sched.recipients ≠ [] ∧
      ∃ minute, sched.ConfiguredMinute (periodOf sched.freq u) minute
  · obtain ⟨hrecipients, minute, hminute⟩ := hminute
    have hsame : ∀ t, (sched.recipients ≠ [] ∧
        sched.ConfiguredMinute (periodOf sched.freq u) (minuteOf t)) ↔ t / seconds 60 = minute := by
      intro t
      constructor
      · exact fun h => configuredMinute_unique h.2 hminute
      · intro h
        exact ⟨hrecipients, show sched.ConfiguredMinute _ (t / seconds 60) from h ▸ hminute⟩
    simp only [hsame]
    rw [countP_block_eq_one_iff (by decide) hapart, and_iff_right hrecipients]
    constructor
    · rintro ⟨t, ht, hm⟩
      exact ⟨minute, hminute, t, ht, hm⟩
    · rintro ⟨minute', hminute', t, ht, hm⟩
      exact ⟨t, ht, hm.trans (configuredMinute_unique hminute' hminute)⟩
  · refine iff_of_false ?_ fun h => hminute ⟨h.1, h.2.imp fun _ h => h.1⟩
    have hzero : ((readings s).countP fun t => sched.recipients ≠ [] ∧
        sched.ConfiguredMinute (periodOf sched.freq u) (minuteOf t)) = 0 := by
      rw [List.countP_eq_zero]
      intro t _ ht
      exact hminute ⟨(of_decide_eq_true ht).1, _, (of_decide_eq_true ht).2⟩
    rw [hzero]
    exact Nat.zero_ne_one

end Counts

section Scheduling

variable {es : List Event} {clock : ℤ}

theorem readings_apart (hes : ∀ e ∈ es, e.ofLoop = true) :
    (readings (run step (startup clock) es)).Pairwise fun later earlier =>
      earlier + seconds 60 ≤ later := by
  have hregistered : Registered appTasks (startup clock) := registered_spec clock 60 appTasks
  obtain ⟨halone, hsame⟩ := hregistered.alone.run hes
  have hinterval : ∀ x ∈ (run step (startup clock) es).history.starts,
      x.name = "scheduled_reports" → x.interval = 60 := by
    intro x hx hname
    have hbegun := halone.kept.begun x hx
    have hmem := halone.refs x.task (State.mem_refs.mpr
      (.inr (.inr (.inr (.inr (.inr (List.mem_map_of_mem hx)))))))
    rw [hsame.tasks] at hmem
    obtain ⟨entry, hentry, htask⟩ := List.mem_map.mp hmem
    obtain ⟨hkey, happ⟩ := hregistered.entries entry hentry
    obtain ⟨hname', hinterval'⟩ := hsame.same x.task
    rw [htask] at hkey happ
    have happTasks : ∀ task ∈ appTasks, task.1 = "scheduled_reports" → task.2 = 60 := by decide
    have hentryName : entry.1 = "scheduled_reports" := by
      rw [← hkey, ← hname', ← hbegun.1, hname]
    rw [hbegun.2.1, hinterval']
    exact happTasks _ happ hentryName
  have hloop : (run step (startup clock) es).loopStarts =
      (run step (startup clock) es).history.starts :=
    List.filter_eq_self.mpr fun x hx => decide_eq_true (halone.byLoop x hx)
  have hpairs := halone.orderly.apart
  rw [hloop] at hpairs
  unfold readings
  rw [List.pairwise_map, List.pairwise_filter]
  refine hpairs.imp_of_mem ?_
  intro later earlier hlater _ hspaced hname hname'
  have hlaterName : later.name = "scheduled_reports" := of_decide_eq_true hname
  rw [← hinterval later hlater hlaterName]
  exact hspaced ((of_decide_eq_true hname').trans hlaterName.symm)

/-- In a run of the loop, each report is sent exactly once in each period exactly if it has
recipients and the task starts in the minute that is configured for the period. -/
theorem sentOncePerPeriod_iff (env : Delivery) (configs : Configs) (clock : ℤ) (es : List Event)
    (hes : ∀ e ∈ es, e.ofLoop = true) :
    SentOncePerPeriod env configs clock (run step (startup clock) es) ↔
      MinutesMet configs clock (run step (startup clock) es) := by
  refine forall_congr' fun key => forall_congr' fun sched => forall_congr' fun hsched =>
    forall_congr' fun henabled => forall_congr' fun u => forall_congr' fun _ => ?_
  exact countP_reportsSent_eq_one_iff hsched henabled (readings_apart hes)

def lasting (elapsed : ℕ) : List Event := [.loop, .tick elapsed, .taskEnds (.ok ())]

/-- A scan takes until twenty seconds to eight, and at the next wake-up, forty seconds past eight, a
task takes long enough for the reports to be looked at a minute past eight only. -/
def slowMorning : List Event :=
  List.flatten
    [[.tick 30000000], List.replicate 13 .loop, (List.replicate 8 (lasting 0)).flatten,
      lasting 28870000000, lasting 0, lasting 0, [.loop, .tick 60000000],
      List.replicate 13 .loop, lasting 25000000, (List.replicate 3 (lasting 0)).flatten,
      lasting 57600000000]

def eve : ℤ := seconds (20605 * 86400 - 120)

def working : Delivery where
  config := some { enabled := true }
  server _ _ := .ok ()
  generate _ _ := .ok ()

def dailyAtEight : ReportSchedule where
  enabled := true
  frequency := some .daily
  time := some "08:00"
  recipients := ["admin@example.com"]

theorem sentOncePerPeriod_iff_slowMorning :
    SentOncePerPeriod working (fun _ => some dailyAtEight) eve (run step (startup eve) slowMorning) ↔
      MinutesMet (fun _ => some dailyAtEight) eve (run step (startup eve) slowMorning) :=
  sentOncePerPeriod_iff working (fun _ => some dailyAtEight) eve slowMorning (by decide +kernel)

/-- The report of a day is not sent, as no wake-up falls in its minute. -/
theorem daily_report_skipped :
    ¬SentOncePerPeriod working (fun _ => some dailyAtEight) eve
      (run step (startup eve) slowMorning) := by
  intro h
  have hclock : (run step (startup eve) slowMorning).clock = seconds (20606 * 86400 + 65) := by
    decide +kernel
  have hwithin : LiesWithin .daily (seconds (20605 * 86400)) eve
      (run step (startup eve) slowMorning).clock := by
    intro t ht
    rw [hclock]
    have hday := Period.day.inj ht
    unfold dayOf minuteOf seconds at hday
    unfold eve seconds
    omega
  have honce := h .certificateInventory dailyAtEight rfl rfl _ hwithin
  have hreadings : readings (run step (startup eve) slowMorning) =
      [seconds (20605 * 86400 + 28865), seconds (20605 * 86400 + 28780)] := by
    decide +kernel
  rw [countP_reportsSent rfl rfl, hreadings] at honce
  revert honce
  decide +kernel

end Scheduling

end Reports

end CaManager
