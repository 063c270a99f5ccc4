import CaManager.Library.Machines
import CaManager.Notifications.ExpiryAlerts

/-!
# Notifications that are suppressed

A notification is not sent again within a cooldown. What was sent is looked up in the log, which
every message is noted in. A cooldown of zero hours should suppress nothing, but is replaced by the
default.
-/

namespace CaManager

open Library

namespace Notifications

structure NotificationConfig where
  type : String
  enabled : Bool := true
  daysBefore : Option ℤ := none
  recipients : Option (List String) := none
  cooldownHours : Option ℤ := some 24
  deriving Repr, DecidableEq

structure Topic where
  type : String
  resourceType : String
  resourceId : String
  deriving Repr, DecidableEq

/-- The configuration and the log. What went through, and when, is kept beside them: the program
has the log only. -/
structure NotificationState where
  configs : List NotificationConfig := []
  smtp : Option SmtpConfig := none
  logs : List NotificationLog := []
  clock : Time := 0
  sent : List (Topic × Time) := []
  deriving Repr, DecidableEq

/-- What the mail server does with a message, and how long it takes. -/
structure Delivery where
  outcome : Except String Unit
  took : ℕ

def NotificationLog.about (row : NotificationLog) (topic : Topic) : Bool :=
  row.type = topic.type && row.resourceType = some topic.resourceType &&
    row.resourceId = some topic.resourceId

def wasRecentlySent (s : NotificationState) (topic : Topic) (hours : ℤ) : Bool :=
  s.logs.any fun row => row.about topic && row.status = .sent && s.clock - 3600 * hours ≤ row.sentAt

def getConfig (s : NotificationState) (type : String) : Option NotificationConfig :=
  s.configs.find? (·.type = type)

/-- `should_send` -/
def shouldSend (s : NotificationState) (topic : Topic) : Bool :=
  match (getConfig s topic.type).filter NotificationConfig.enabled with
  | none => false
  | some config =>
    let cooldown := (config.cooldownHours.filter (· ≠ 0)).getD 24
    if cooldown = 0 then true else !wasRecentlySent s topic cooldown

def mail (s : NotificationState) (topic : Topic) (subject : String) (recipients : List String)
    (d : Delivery) : (Bool × String) × NotificationState :=
  let now := s.clock + d.took
  let answer := sendEmail s.smtp d.outcome
    ⟨recipients, subject, topic.type, some topic.resourceType, some topic.resourceId⟩ now
  (answer.1, { s with
    logs := s.logs ++ answer.2
    clock := now
    sent := if answer.1.1 then s.sent ++ [(topic, now)] else s.sent })

inductive Notified
  | skipped
  | noRecipients
  | mailed (answer : Bool × String)
  deriving Repr, DecidableEq

def Notified.answer : Notified → Bool × String
  | skipped => (true, "Notification skipped (disabled or cooldown)")
  | noRecipients => (true, "No recipients configured")
  | mailed answer => answer

def notify (s : NotificationState) (topic : Topic) (subject : String) (d : Delivery) :
    Notified × NotificationState :=
  if shouldSend s topic then
    match (getConfig s topic.type).bind NotificationConfig.recipients with
    | none => (.noRecipients, s)
    | some recipients =>
      if recipients = [] then (.noRecipients, s)
      else ((.mailed (mail s topic subject recipients d).1), (mail s topic subject recipients d).2)
  else (.skipped, s)

def titleOf (cert : Certificate) : String :=
  if cert.descr = "" then cert.subject.getD "None" else cert.descr

def issuedTopic (cert : Certificate) : Topic := ⟨"cert_issued", "certificate", cert.refid⟩

def revokedTopic (cert : Certificate) : Topic := ⟨"cert_revoked", "certificate", cert.refid⟩

def caTopic (ca : CA) : Topic := ⟨"ca_created", "ca", ca.refid⟩

def alertTopic (alertType username : String) : Topic :=
  ⟨"security_alert", "security", s!"{alertType}:{username}"⟩

def onCertificateIssued (s : NotificationState) (cert : Certificate) (d : Delivery) :
    Notified × NotificationState :=
  notify s (issuedTopic cert) s!"UCM: New Certificate Issued - {titleOf cert}" d

def onCertificateRevoked (s : NotificationState) (cert : Certificate) (d : Delivery) :
    Notified × NotificationState :=
  notify s (revokedTopic cert) s!"⚠️ UCM Alert: Certificate Revoked - {titleOf cert}" d

def onCaCreated (s : NotificationState) (ca : CA) (d : Delivery) : Notified × NotificationState :=
  notify s (caTopic ca) s!"UCM: New Certificate Authority Created - {ca.descr}" d

def onSecurityAlert (s : NotificationState) (alertType username : String) (d : Delivery) :
    Notified × NotificationState :=
  notify s (alertTopic alertType username) s!"🚨 UCM Security Alert: {alertType}" d

def endingSoon {α : Type} (s : NotificationState) (type : String) (ends : α → Option Time)
    (rows : List α) : List α :=
  match ((getConfig s type).filter NotificationConfig.enabled).bind fun config =>
    config.daysBefore.filter (· ≠ 0) with
  | none => []
  | some daysBefore => rows.filter fun row =>
      (ends row).any fun time => time ≤ s.clock + days daysBefore && s.clock < time

def certTopic (cert : Certificate) : Topic := ⟨"cert_expiring", "certificate", cert.refid⟩

def crlTopic (crl : CrlMetadata) : Topic := ⟨"crl_expiring", "crl", s!"{crl.id}"⟩

def endingCertificates (s : NotificationState) (st : Store) : List Certificate :=
  endingSoon s "cert_expiring" Certificate.validTo (st.certificates.select fun c => !c.revoked)

def endingCrls (s : NotificationState) (st : Store) : List CrlMetadata :=
  endingSoon s "crl_expiring" (fun crl => some crl.nextUpdate) st.crls.rows

/-- `check_expiring_certificates` -/
def checkExpiringCertificates (s : NotificationState) (st : Store) : List (Certificate × ℤ) :=
  ((endingCertificates s st).filter fun cert => shouldSend s (certTopic cert)).map fun cert =>
    (cert, (cert.validTo.map (daysUntil s.clock)).getD 0)

/-- `check_expiring_crls` -/
def checkExpiringCrls (s : NotificationState) (st : Store) : List (CrlMetadata × ℤ) :=
  ((endingCrls s st).filter fun crl => shouldSend s (crlTopic crl)).map fun crl =>
    (crl, daysUntil s.clock crl.nextUpdate)

structure Tally where
  checked : ℕ := 0
  notified : ℕ := 0
  failed : ℕ := 0
  deriving Repr, DecidableEq

def mailAll (recipients : List String) (deliver : Topic → Delivery)
    (state : Tally × NotificationState) (item : Topic × String) : Tally × NotificationState :=
  let sending := mail state.2 item.1 item.2 recipients (deliver item.1)
  (if sending.1.1 then { state.1 with notified := state.1.notified + 1 }
    else { state.1 with failed := state.1.failed + 1 }, sending.2)

def runCheck (s : NotificationState) (type : String) (items : List (Topic × String))
    (deliver : Topic → Delivery) : Tally × NotificationState :=
  match ((getConfig s type).filter NotificationConfig.enabled).bind
    NotificationConfig.recipients with
  | none => ({}, s)
  | some recipients => items.foldl (mailAll recipients deliver) ({ checked := items.length }, s)

def runCertificateCheck (s : NotificationState) (st : Store) (deliver : Topic → Delivery) :
    Tally × NotificationState :=
  runCheck s "cert_expiring" ((checkExpiringCertificates s st).map fun item =>
    (certTopic item.1,
      s!"UCM Alert: Certificate Expiring in {item.2} days - {item.1.descr}")) deliver

def runCrlCheck (s : NotificationState) (st : Store) (deliver : Topic → Delivery) :
    Tally × NotificationState :=
  runCheck s "crl_expiring" ((checkExpiringCrls s st).map fun item =>
    let caName := ((st.cas.get? item.1.caId).map CA.descr).getD "Unknown CA"
    (crlTopic item.1, s!"UCM Alert: CRL Expiring in {item.2} days - {caName}")) deliver

/-- `run_scheduled_checks` -/
def runScheduledChecks (s : NotificationState) (st : Store) (deliver : Topic → Delivery) :
    (Tally × Tally) × NotificationState :=
  let certs := runCertificateCheck s st deliver
  let crls := runCrlCheck certs.2 st deliver
  ((certs.1, crls.1), crls.2)

/-- Time passes, the configuration is changed, and notifications are attempted. -/
inductive NotificationEvent
  | wait (seconds : ℕ)
  | configure (config : NotificationConfig)
  | setSmtp (smtp : Option SmtpConfig)
  | certificateIssued (cert : Certificate) (d : Delivery)
  | certificateRevoked (cert : Certificate) (d : Delivery)
  | caCreated (ca : CA) (d : Delivery)
  | securityAlert (alertType username : String) (d : Delivery)
  | scheduled (st : Store) (deliver : Topic → Delivery)

def NotificationState.step (s : NotificationState) : NotificationEvent → NotificationState
  | .wait seconds => { s with clock := s.clock + seconds }
  | .configure config =>
    { s with configs := config :: s.configs.filter (·.type ≠ config.type) }
  | .setSmtp smtp => { s with smtp := smtp }
  | .certificateIssued cert d => (onCertificateIssued s cert d).2
  | .certificateRevoked cert d => (onCertificateRevoked s cert d).2
  | .caCreated ca d => (onCaCreated s ca d).2
  | .securityAlert alertType username d => (onSecurityAlert s alertType username d).2
  | .scheduled st deliver => (runScheduledChecks s st deliver).2

/-- The attempts that an event makes: the state that each finds, what it is about, and whether it is
suppressed. -/
def attempts (s : NotificationState) :
    NotificationEvent → List (NotificationState × Topic × Bool)
  | .wait _ => []
  | .configure _ => []
  | .setSmtp _ => []
  | .certificateIssued cert d =>
    [(s, issuedTopic cert, (onCertificateIssued s cert d).1 = .skipped)]
  | .certificateRevoked cert d =>
    [(s, revokedTopic cert, (onCertificateRevoked s cert d).1 = .skipped)]
  | .caCreated ca d => [(s, caTopic ca, (onCaCreated s ca d).1 = .skipped)]
  | .securityAlert alertType username d =>
    [(s, alertTopic alertType username, (onSecurityAlert s alertType username d).1 = .skipped)]
  | .scheduled st deliver =>
    let s' := (runCertificateCheck s st deliver).2
    ((endingCertificates s st).map fun cert =>
        (s, certTopic cert, decide (cert ∉ (checkExpiringCertificates s st).map Prod.fst))) ++
      (endingCrls s' st).map fun crl =>
        (s', crlTopic crl, decide (crl ∉ (checkExpiringCrls s' st).map Prod.fst))

def NotificationConfig.cooldown (config : NotificationConfig) : ℤ := config.cooldownHours.getD 24

/-- The configuration of an enabled notification with recipients. -/
structure Active (s : NotificationState) (topic : Topic) (config : NotificationConfig) : Prop where
  found : getConfig s topic.type = some config
  enabled : config.enabled = true
  recipients : ∃ recipients, config.recipients = some recipients ∧ recipients ≠ []

/-- A notification is suppressed exactly if it went through less than the cooldown ago. -/
def SuppressedRightly (s : NotificationState) (topic : Topic) (suppressed : Bool) : Prop :=
  ∀ config, Active s topic config →
    (suppressed = true ↔
      ∃ t, (topic, t) ∈ s.sent ∧ s.clock - t < 3600 * config.cooldown)

/-- A notification without cooldown went through within the last day, or one with a cooldown just
as long ago as that, and not since. -/
def OnTheLine (s : NotificationState) (topic : Topic) : Prop :=
  ∃ config, Active s topic config ∧
    (config.cooldown = 0 ∧ (∃ t, (topic, t) ∈ s.sent ∧ s.clock - t ≤ 3600 * 24) ∨
      config.cooldown ≠ 0 ∧ (∃ t, (topic, t) ∈ s.sent ∧ s.clock - t = 3600 * config.cooldown) ∧
        ∀ t, (topic, t) ∈ s.sent → 3600 * config.cooldown ≤ s.clock - t)

/-- What went through is what the log tells, and is past. -/
structure Logged (s : NotificationState) : Prop where
  sent_iff : ∀ topic t, (topic, t) ∈ s.sent ↔
    ∃ row ∈ s.logs, row.about topic = true ∧ row.status = .sent ∧ row.sentAt = t
  past : ∀ topic t, (topic, t) ∈ s.sent → t ≤ s.clock

section Suppression

variable {s : NotificationState} {topic : Topic} {subject : String} {recipients : List String}
  {d : Delivery} {config : NotificationConfig}

theorem Logged.empty : Logged {} := by
  constructor
  case sent_iff => simp
  case past => simp

theorem Logged.clock_le {s' : NotificationState} (h : Logged s) (hlogs : s'.logs = s.logs)
    (hsent : s'.sent = s.sent) (hclock : s.clock ≤ s'.clock) : Logged s' := by
  constructor
  case sent_iff =>
    intro topic t
    rw [hsent, hlogs]
    exact h.sent_iff topic t
  case past =>
    intro topic t ht
    rw [hsent] at ht
    exact (h.past topic t ht).trans hclock

theorem about_iff {row : NotificationLog} {topic' : Topic} :
    row.about topic' = true ↔ row.type = topic'.type ∧ row.resourceType = some topic'.resourceType ∧
      row.resourceId = some topic'.resourceId := by
  simp [NotificationLog.about, and_assoc]

theorem exists_row_iff (subject : String) {topic topic' : Topic} {now t : Time}
    (hrecipients : recipients ≠ []) :
    (∃ row ∈ (Email.mk recipients subject topic.type (some topic.resourceType)
        (some topic.resourceId)).logs .sent none now,
      row.about topic' = true ∧ row.status = .sent ∧ row.sentAt = t) ↔
        topic' = topic ∧ t = now := by
  constructor
  · rintro ⟨row, hrow, habout, -, hat⟩
    obtain ⟨recipient, -, rfl⟩ := List.mem_map.mp hrow
    obtain ⟨htype, hresourceType, hresourceId⟩ := about_iff.mp habout
    refine ⟨?_, hat.symm⟩
    cases topic
    cases topic'
    cases htype
    cases hresourceType
    cases hresourceId
    rfl
  · rintro ⟨rfl, rfl⟩
    obtain ⟨recipient, hrecipient⟩ := List.exists_mem_of_ne_nil recipients hrecipients
    exact ⟨_, List.mem_map_of_mem hrecipient, about_iff.mpr ⟨rfl, rfl, rfl⟩, rfl, rfl⟩

theorem Logged.mail (h : Logged s) (topic : Topic) (subject : String) (recipients : List String)
    (d : Delivery) : Logged (mail s topic subject recipients d).2 := by
  have hlater : s.clock ≤ s.clock + d.took := le_add_of_nonneg_right (Int.natCast_nonneg d.took)
  unfold Notifications.mail
  dsimp only
  rcases sendEmail_cases s.smtp d.outcome ⟨recipients, subject, topic.type,
    some topic.resourceType, some topic.resourceId⟩ (s.clock + d.took) with
    ⟨hsent, hrecipients, hlogs⟩ | ⟨hfailed, hrows⟩
  · rw [hlogs, if_pos hsent]
    constructor
    case sent_iff =>
      intro topic' t
      dsimp only
      rw [List.mem_append, h.sent_iff, List.mem_singleton, Prod.mk.injEq,
        ← exists_row_iff subject hrecipients]
      simp only [List.mem_append, or_and_right, exists_or]
    case past =>
      intro topic' t ht
      rcases List.mem_append.mp ht with ht | ht
      · exact (h.past topic' t ht).trans hlater
      · rw [(Prod.mk.inj (List.mem_singleton.mp ht)).2]
  · rw [hfailed, if_neg Bool.false_ne_true]
    constructor
    case sent_iff =>
      intro topic' t
      dsimp only
      rw [h.sent_iff]
      constructor
      · rintro ⟨row, hrow, hmatch⟩
        exact ⟨row, List.mem_append_left _ hrow, hmatch⟩
      · rintro ⟨row, hrow, habout, hstatus, hat⟩
        rcases List.mem_append.mp hrow with hrow | hrow
        · exact ⟨row, hrow, habout, hstatus, hat⟩
        · rw [hrows row hrow] at hstatus
          cases hstatus
    case past => exact fun topic' t ht => (h.past topic' t ht).trans hlater

theorem Logged.notify (h : Logged s) (topic : Topic) (subject : String) (d : Delivery) :
    Logged (notify s topic subject d).2 := by
  unfold Notifications.notify
  split_ifs
  · cases (getConfig s topic.type).bind NotificationConfig.recipients with
    | none => exact h
    | some recipients =>
      dsimp only
      split_ifs
      · exact h
      · exact h.mail topic subject recipients d
  · exact h

theorem Logged.runCheck (h : Logged s) (type : String) (items : List (Topic × String))
    (deliver : Topic → Delivery) : Logged (runCheck s type items deliver).2 := by
  unfold Notifications.runCheck
  cases ((getConfig s type).filter NotificationConfig.enabled).bind
    NotificationConfig.recipients with
  | none => exact h
  | some recipients =>
    dsimp only
    generalize (⟨items.length, 0, 0⟩ : Tally) = tally
    induction items generalizing s tally with
    | nil => exact h
    | cons item items ih =>
      rw [List.foldl_cons]
      exact ih (h.mail item.1 item.2 recipients (deliver item.1)) _

theorem Logged.step (h : Logged s) (e : NotificationEvent) : Logged (s.step e) := by
  cases e with
  | wait seconds => exact h.clock_le rfl rfl (le_add_of_nonneg_right (Int.natCast_nonneg seconds))
  | configure config => exact h.clock_le rfl rfl le_rfl
  | setSmtp smtp => exact h.clock_le rfl rfl le_rfl
  | certificateIssued cert d => exact h.notify _ _ d
  | certificateRevoked cert d => exact h.notify _ _ d
  | caCreated ca d => exact h.notify _ _ d
  | securityAlert alertType username d => exact h.notify _ _ d
  | scheduled st deliver => exact (h.runCheck _ _ deliver).runCheck _ _ deliver

theorem notify_skipped_iff :
    (notify s topic subject d).1 = .skipped ↔ shouldSend s topic = false := by
  unfold notify
  cases shouldSend s topic with
  | false => simp
  | true =>
    rw [if_pos rfl]
    cases (getConfig s topic.type).bind NotificationConfig.recipients with
    | none => simp
    | some recipients =>
      dsimp only
      split_ifs
      · simp
      · simp

/-- An enabled notification is not sent exactly if it went through within the cooldown, where one of
zero hours is replaced by a day. -/
theorem shouldSend_eq_false_iff (h : Logged s) (hactive : Active s topic config) :
    shouldSend s topic = false ↔ ∃ t, (topic, t) ∈ s.sent ∧
      s.clock - t ≤ 3600 * if config.cooldown = 0 then 24 else config.cooldown := by
  have hhours : (config.cooldownHours.filter (· ≠ 0)).getD 24 =
      if config.cooldown = 0 then 24 else config.cooldown := by
    unfold NotificationConfig.cooldown
    rcases config.cooldownHours with _ | hours
    · rfl
    · by_cases hzero : hours = 0
      · rw [hzero]
        rfl
      · simp [Option.filter_some, hzero]
  have hne : (if config.cooldown = 0 then 24 else config.cooldown) ≠ 0 := by
    split_ifs with hzero
    · decide
    · exact hzero
  have hcutoff : ∀ now hours t : ℤ, now - 3600 * hours ≤ t ↔ now - t ≤ 3600 * hours := by omega
  unfold shouldSend wasRecentlySent
  rw [hactive.found, Option.filter_some, if_pos hactive.enabled]
  dsimp only
  rw [hhours, if_neg hne, Bool.not_eq_false', List.any_eq_true]
  constructor
  · rintro ⟨row, hrow, hmatch⟩
    simp only [Bool.and_eq_true, decide_eq_true_iff] at hmatch
    exact ⟨row.sentAt, (h.sent_iff topic _).mpr ⟨row, hrow, hmatch.1.1, hmatch.1.2, rfl⟩,
      (hcutoff _ _ _).mp hmatch.2⟩
  · rintro ⟨t, ht, hle⟩
    obtain ⟨row, hrow, habout, hstatus, rfl⟩ := (h.sent_iff topic t).mp ht
    refine ⟨row, hrow, ?_⟩
    simp only [Bool.and_eq_true, decide_eq_true_iff]
    exact ⟨⟨habout, hstatus⟩, (hcutoff _ _ _).mpr hle⟩

theorem suppressedRightly_iff (h : Logged s) (topic : Topic) :
    SuppressedRightly s topic (!shouldSend s topic) ↔ ¬OnTheLine s topic := by
  have hpast : ∀ t, (topic, t) ∈ s.sent → 0 ≤ s.clock - t :=
    fun t ht => sub_nonneg.mpr (h.past topic t ht)
  constructor
  · rintro hright ⟨config, hactive, ⟨hzero, t, ht, hle⟩ | ⟨hne, ⟨t, ht, heq⟩, hall⟩⟩
    · have hnot : shouldSend s topic = false := by
        rw [shouldSend_eq_false_iff h hactive, if_pos hzero]
        exact ⟨t, ht, hle⟩
      obtain ⟨t', ht', hlt⟩ := (hright config hactive).mp (by rw [hnot]; rfl)
      rw [hzero, mul_zero] at hlt
      exact absurd (hpast t' ht') (not_le.mpr hlt)
    · have hnot : shouldSend s topic = false := by
        rw [shouldSend_eq_false_iff h hactive, if_neg hne]
        exact ⟨t, ht, heq.le⟩
      obtain ⟨t', ht', hlt⟩ := (hright config hactive).mp (by rw [hnot]; rfl)
      exact absurd (hall t' ht') (not_le.mpr hlt)
  · intro hline config hactive
    rw [Bool.not_eq_true', shouldSend_eq_false_iff h hactive]
    constructor
    · rintro ⟨t, ht, hle⟩
      by_cases hzero : config.cooldown = 0
      · rw [if_pos hzero] at hle
        exact absurd ⟨config, hactive, .inl ⟨hzero, t, ht, hle⟩⟩ hline
      · rw [if_neg hzero] at hle
        by_contra! hnone
        exact hline ⟨config, hactive, .inr ⟨hzero, ⟨t, ht, le_antisymm hle (hnone t ht)⟩, hnone⟩⟩
    · rintro ⟨t, ht, hlt⟩
      refine ⟨t, ht, ?_⟩
      split_ifs with hzero
      · rw [hzero, mul_zero] at hlt
        exact absurd (hpast t ht) (not_le.mpr hlt)
      · exact hlt.le

theorem notMem_told_iff {α β : Type} [DecidableEq α] {rows : List α} {topicOf : α → Topic}
    {f : α → β} {row : α} (hrow : row ∈ rows) :
    decide (row ∉ ((rows.filter fun row => shouldSend s (topicOf row)).map
      fun row => (row, f row)).map Prod.fst) = !shouldSend s (topicOf row) := by
  rw [Bool.eq_iff_iff, decide_eq_true_iff, Bool.not_eq_true', ← Bool.not_eq_true, not_iff_not,
    List.map_map]
  simp [hrow]

theorem attempts_spec (h : Logged s) (e : NotificationEvent) :
    ∀ a ∈ attempts s e, Logged a.1 ∧ a.2.2 = !shouldSend a.1 a.2.1 := by
  have hskipped (topic : Topic) (subject : String) (d : Delivery) :
      decide ((notify s topic subject d).1 = .skipped) = !shouldSend s topic := by
    rw [Bool.eq_iff_iff, decide_eq_true_iff, Bool.not_eq_true', notify_skipped_iff]
  intro a ha
  cases e with
  | wait seconds => cases ha
  | configure config => cases ha
  | setSmtp smtp => cases ha
  | certificateIssued cert d =>
    rw [List.mem_singleton.mp ha]
    exact ⟨h, hskipped _ _ d⟩
  | certificateRevoked cert d =>
    rw [List.mem_singleton.mp ha]
    exact ⟨h, hskipped _ _ d⟩
  | caCreated ca d =>
    rw [List.mem_singleton.mp ha]
    exact ⟨h, hskipped _ _ d⟩
  | securityAlert alertType username d =>
    rw [List.mem_singleton.mp ha]
    exact ⟨h, hskipped _ _ d⟩
  | scheduled st deliver =>
    rcases List.mem_append.mp ha with ha | ha
    · obtain ⟨cert, hcert, rfl⟩ := List.mem_map.mp ha
      exact ⟨h, notMem_told_iff hcert⟩
    · obtain ⟨crl, hcrl, rfl⟩ := List.mem_map.mp ha
      exact ⟨h.runCheck _ _ deliver, notMem_told_iff hcrl⟩

/-- A certificate that is revoked, and revoked again after its hold was taken back. -/
def heldCertificate : Certificate := { refid := "leaf", descr := "www" }

end Suppression

end Notifications

end CaManager
