import CaManager.Library.Deduplication
import CaManager.Library.Machines
import CaManager.Store.Rows
import CaManager.X509

/-!
# Mail

A message is handed to the mail server once for all its recipients, and a row is noted for each of
them, whether it went through or not.
-/

namespace CaManager

namespace Notifications

structure SmtpConfig where
  smtpFrom : Option String := none
  enabled : Bool := false
  deriving Repr, DecidableEq

inductive DeliveryStatus
  | sent
  | failed
  deriving Repr, DecidableEq

structure NotificationLog where
  type : String
  recipient : String
  subject : String
  status : DeliveryStatus
  errorMessage : Option String := none
  resourceType : Option String := none
  resourceId : Option String := none
  sentAt : Time
  deriving Repr, DecidableEq

structure Email where
  recipients : List String
  subject : String
  notificationType : String := "general"
  resourceType : Option String := none
  resourceId : Option String := none
  deriving Repr, DecidableEq

def Email.logs (email : Email) (status : DeliveryStatus) (errorMessage : Option String)
    (now : Time) : List NotificationLog :=
  email.recipients.map fun recipient =>
    ⟨email.notificationType, recipient, email.subject, status, errorMessage, email.resourceType,
      email.resourceId, now⟩

/-- `EmailService.send_email`: whether the message went through, what is told, and what is noted.
The mail server takes the message, or does not. -/
def sendEmail (config : Option SmtpConfig) (server : Except String Unit) (email : Email)
    (now : Time) : (Bool × String) × List NotificationLog :=
  match config.filter SmtpConfig.enabled with
  | none => ((false, "SMTP is not configured or disabled"), [])
  | some _ =>
    if email.recipients = [] then ((false, "No recipients specified"), [])
    else
      match server with
      | .ok _ =>
        ((true, s!"Email sent to {email.recipients.length} recipient(s)"),
          email.logs .sent none now)
      | .error e =>
        ((false, s!"Failed to send email: {e}"), email.logs .failed (some e) now)

theorem sendEmail_cases (config : Option SmtpConfig) (server : Except String Unit) (email : Email)
    (now : Time) :
    ((sendEmail config server email now).1.1 = true ∧ email.recipients ≠ [] ∧
        (sendEmail config server email now).2 = email.logs .sent none now) ∨
      (sendEmail config server email now).1.1 = false ∧
        ∀ row ∈ (sendEmail config server email now).2, row.status = .failed := by
  unfold sendEmail
  cases config.filter SmtpConfig.enabled with
  | none => exact .inr ⟨rfl, by simp⟩
  | some config =>
    dsimp only
    split_ifs with hrecipients
    · exact .inr ⟨rfl, by simp⟩
    · cases server with
      | ok u => exact .inl ⟨rfl, hrecipients, rfl⟩
      | error e => exact .inr ⟨rfl, by simp [Email.logs]⟩

end Notifications

end CaManager

/-!
# Alerts before certificates expire

A check goes through the configured numbers of days and alerts for the certificates that have so
many days left, or a few less. It remembers whom it alerted, but only to its end.
-/

namespace CaManager

open Library

namespace Notifications

structure ExpiryAlertSettings where
  enabled : Bool := true
  alertDays : List ℤ := [30, 14, 7, 1]
  includeRevoked : Bool := false
  recipients : List String := []
  lastRun : Option Time := none
  totalAlertsSent : ℕ := 0
  deriving Repr, DecidableEq

structure ExpiringCertificate where
  id : ℕ
  serialNumber : Option String
  commonName : String
  subject : Option String
  validTo : Option Time
  daysUntilExpiry : ℤ
  issuerCaId : Option String
  revoked : Bool
  deriving Repr, DecidableEq

def daysUntil (now time : Time) : ℤ := (time - now) / 86400

def expiring (now : Time) (cert : Certificate) : ExpiringCertificate :=
  { id := cert.id, serialNumber := cert.serialNumber, commonName := cert.descr
    subject := cert.subject, validTo := cert.validTo
    daysUntilExpiry := (cert.validTo.map (daysUntil now)).getD 0
    issuerCaId := cert.caref, revoked := cert.revoked }

def expiresWithin (alertDays : ℤ) (includeRevoked : Bool) (now : Time) (cert : Certificate) :
    Bool :=
  cert.validTo.any (fun validTo => validTo ≤ now + days alertDays && now < validTo) &&
    (includeRevoked || !cert.revoked)

/-- `get_expiring_certificates` -/
def getExpiringCertificates (certs : Table Certificate) (alertDays : ℤ) (includeRevoked : Bool)
    (now : Time) : List ExpiringCertificate :=
  ((certs.select (expiresWithin alertDays includeRevoked now)).mergeSort fun c c' =>
    c.validTo.getD 0 ≤ c'.validTo.getD 0).map (expiring now)

def inWindow (alertDays daysLeft : ℤ) : Bool :=
  daysLeft ≤ alertDays && (if 7 < alertDays then alertDays - 7 else 0) < daysLeft

structure Alert where
  certId : ℕ
  validTo : Option Time
  alertDays : ℤ
  daysLeft : ℤ
  recipients : List String
  deriving Repr, DecidableEq

structure CheckProgress where
  alerts : List Alert := []
  errors : List String := []
  logs : List NotificationLog := []
  deriving Repr, DecidableEq

/-- The configured recipients. Where the mail has a sender, a field is read that the configuration
does not have. -/
def alertRecipients (settings : ExpiryAlertSettings) (config : SmtpConfig) :
    Except PyError (List String) :=
  match config.smtpFrom.filter (· ≠ "") with
  | some _ => .error (.attributeError "SMTPConfig" "admin_email")
  | none => .ok settings.recipients

/-- `send_expiry_alert` -/
def sendExpiryAlert (config : SmtpConfig) (server : Except String Unit)
    (cert : ExpiringCertificate) (daysLeft : ℤ) (recipients : List String) (now : Time) :
    (Bool × String) × List NotificationLog :=
  let urgency := if daysLeft ≤ 7 then "URGENT" else "WARNING"
  sendEmail (some config) server
    { recipients := recipients, notificationType := "cert_expiry"
      subject := s!"[UCM] {urgency}: Certificate expires in {daysLeft} days - {cert.commonName}"
      resourceType := some "certificate", resourceId := some s!"{cert.id}" } now

/-- Whether the mail server takes the message about a certificate for a threshold. -/
abbrev MailServer := ℕ → ℤ → Except String Unit

/-- One certificate in the loop over a threshold. What was sent stays sent when an exception is
raised. -/
def alertCertificate (settings : ExpiryAlertSettings) (config : SmtpConfig) (server : MailServer)
    (now : Time) (alertDays : ℤ) (p : CheckProgress) (cert : ExpiringCertificate) :
    Except (PyError × CheckProgress) CheckProgress :=
  if inWindow alertDays cert.daysUntilExpiry then
    if cert.id ∈ p.alerts.map Alert.certId then .ok p
    else
      match alertRecipients settings config with
      | .error e => .error (e, p)
      | .ok recipients =>
        if recipients = [] then .ok p
        else
          match sendExpiryAlert config (server cert.id alertDays) cert cert.daysUntilExpiry
            recipients now with
          | ((true, _), logs) =>
            .ok { p with
              alerts := p.alerts ++
                [⟨cert.id, cert.validTo, alertDays, cert.daysUntilExpiry, recipients⟩]
              logs := p.logs ++ logs }
          | ((false, message), logs) =>
            .ok { p with
              errors := p.errors ++ [s!"Cert {cert.id}: {message}"], logs := p.logs ++ logs }
  else .ok p

def alertThreshold (settings : ExpiryAlertSettings) (config : SmtpConfig) (server : MailServer)
    (certs : Table Certificate) (now : Time) (p : CheckProgress) (alertDays : ℤ) :
    Except (PyError × CheckProgress) CheckProgress :=
  (getExpiringCertificates certs (alertDays + 1) settings.includeRevoked now).foldlM
    (alertCertificate settings config server now alertDays) p

structure CheckResult where
  status : String
  alertsSent : ℕ
  certificatesChecked : Option ℕ := none
  errors : Option (List String) := none
  deriving Repr, DecidableEq

/-- What a check answers or raises, what it sent, and the settings after it. -/
structure CheckOutcome where
  result : Except PyError CheckResult
  sent : CheckProgress
  settings : ExpiryAlertSettings

/-- `check_and_send_alerts` -/
def checkAndSendAlerts (settings : ExpiryAlertSettings) (smtp : Option SmtpConfig)
    (server : MailServer) (certs : Table Certificate) (now : Time) : CheckOutcome :=
  if settings.enabled = false then ⟨.ok ⟨"disabled", 0, none, none⟩, {}, settings⟩
  else
    match smtp.filter SmtpConfig.enabled with
    | none => ⟨.ok ⟨"smtp_disabled", 0, none, none⟩, {}, settings⟩
    | some config =>
      match settings.alertDays.foldlM (alertThreshold settings config server certs now) {} with
      | .error (e, p) => ⟨.error e, p, settings⟩
      | .ok p =>
        ⟨.ok ⟨"completed", p.alerts.length, some p.alerts.length,
            if p.errors = [] then none else some p.errors⟩, p,
          { settings with
            lastRun := some now
            totalAlertsSent := settings.totalAlertsSent + p.alerts.length }⟩

/-- A check meets the certificates, the configuration of the mail and the mail server as they are at
its time. -/
structure ExpiryCheck where
  now : Time
  certs : Table Certificate
  smtp : Option SmtpConfig
  server : MailServer

/-- Checks are made daily or by hand. A restart forgets the settings. -/
inductive ExpiryEvent
  | check (c : ExpiryCheck)
  | restart

structure ExpiryService where
  settings : ExpiryAlertSettings
  alerts : List Alert := []

def ExpiryService.step (s : ExpiryService) : ExpiryEvent → ExpiryService
  | .check c =>
    let outcome := checkAndSendAlerts s.settings c.smtp c.server c.certs c.now
    { settings := outcome.settings, alerts := s.alerts ++ outcome.sent.alerts }
  | .restart => { s with settings := {} }

def sendsAlerts (settings : ExpiryAlertSettings) (smtp : Option SmtpConfig) : Bool :=
  settings.enabled && smtp.any (fun config => config.enabled &&
    (config.smtpFrom.filter (· ≠ "")).isNone) && settings.recipients ≠ []

/-- The threshold that a certificate falls to at a check, where alerts can be sent and it is stored
and valid: the first that the days left belong to and that the mail server takes the message for. -/
def thresholdAt (settings : ExpiryAlertSettings) (c : ExpiryCheck) (certId : ℕ) (validTo : Time) :
    Option ℤ :=
  if sendsAlerts settings c.smtp && (c.certs.get? certId).any (fun cert =>
      cert.validTo = some validTo && (settings.includeRevoked || !cert.revoked)) &&
      c.now < validTo then
    settings.alertDays.find? fun alertDays =>
      inWindow alertDays (daysUntil c.now validTo) && (c.server certId alertDays).toBool
  else none

def thresholdsOf (alerts : List Alert) (certId : ℕ) (validTo : Time) : List ℤ :=
  ((alerts.filter (·.certId = certId)).filter (·.validTo = some validTo)).map Alert.alertDays

section Check

variable {settings : ExpiryAlertSettings} {config : SmtpConfig} {server : MailServer}
  {certs : Table Certificate} {now : Time} {p : CheckProgress} {certId : ℕ}

def attempt (settings : ExpiryAlertSettings) (server : MailServer)
    (pair : ℤ × ExpiringCertificate) : Option Alert :=
  if inWindow pair.1 pair.2.daysUntilExpiry && (server pair.2.id pair.1).toBool then
    some ⟨pair.2.id, pair.2.validTo, pair.1, pair.2.daysUntilExpiry, settings.recipients⟩
  else none

theorem alertCertificate_of_sends (henabled : config.enabled = true)
    (hfrom : config.smtpFrom.filter (· ≠ "") = none) (hrecipients : settings.recipients ≠ [])
    (alertDays : ℤ) (p : CheckProgress) (cert : ExpiringCertificate) :
    ∃ p', alertCertificate settings config server now alertDays p cert = .ok p' ∧
      p'.alerts = serveOnce (attempt settings server) (fun pair => pair.2.id) Alert.certId p.alerts
        (alertDays, cert) := by
  unfold alertCertificate serveOnce attempt
  dsimp only
  by_cases hmem : cert.id ∈ p.alerts.map Alert.certId
  · rw [if_pos hmem, if_pos hmem]
    split_ifs
    · exact ⟨p, rfl, rfl⟩
    · exact ⟨p, rfl, rfl⟩
  · rw [if_neg hmem, if_neg hmem]
    cases hwindow : inWindow alertDays cert.daysUntilExpiry with
    | false => exact ⟨p, rfl, by simp⟩
    | true =>
      have hready : (some config).filter SmtpConfig.enabled = some config := by
        simp [Option.filter_some, henabled]
      unfold alertRecipients sendExpiryAlert sendEmail
      rw [hfrom, if_pos rfl]
      dsimp only
      rw [if_neg hrecipients, hready]
      dsimp only
      rw [if_neg hrecipients]
      cases server cert.id alertDays with
      | ok u => exact ⟨_, rfl, rfl⟩
      | error e => exact ⟨_, rfl, by simp [Except.toBool]⟩

theorem alertCertificate_of_not_sends
    (h : config.smtpFrom.filter (· ≠ "") ≠ none ∨ settings.recipients = []) (alertDays : ℤ)
    (p : CheckProgress) (cert : ExpiringCertificate) :
    alertCertificate settings config server now alertDays p cert = .ok p ∨
      ∃ e, alertCertificate settings config server now alertDays p cert = .error (e, p) := by
  unfold alertCertificate alertRecipients
  cases hfrom : config.smtpFrom.filter (· ≠ "") with
  | some sender =>
    split_ifs
    · exact .inl rfl
    · exact .inr ⟨_, rfl⟩
    · exact .inl rfl
  | none =>
    have hrecipients : settings.recipients = [] := h.resolve_left (not_not_intro hfrom)
    dsimp only
    split_ifs
    · exact .inl rfl
    · exact .inl rfl
    · exact .inl rfl

theorem mem_getExpiringCertificates {alertDays : ℤ} {includeRevoked : Bool}
    {cert : ExpiringCertificate} :
    cert ∈ getExpiringCertificates certs alertDays includeRevoked now ↔
      ∃ row ∈ certs, expiresWithin alertDays includeRevoked now row = true ∧
        expiring now row = cert := by
  unfold getExpiringCertificates
  simp only [List.mem_map, List.mem_mergeSort, Table.mem_select, and_assoc]

theorem findSome?_getExpiringCertificates (certId : ℕ) (alertDays : ℤ) :
    ((getExpiringCertificates certs (alertDays + 1) settings.includeRevoked now).findSome?
        fun cert => if cert.id = certId then attempt settings server (alertDays, cert) else none) =
      ((certs.get? certId).filter fun row =>
        expiresWithin (alertDays + 1) settings.includeRevoked now row).bind fun row =>
          attempt settings server (alertDays, expiring now row) := by
  cases hrow : certs.get? certId with
  | none =>
    apply List.findSome?_eq_none_iff.mpr
    intro cert hcert
    obtain ⟨row, hmem, _, rfl⟩ := mem_getExpiringCertificates.mp hcert
    exact if_neg (Table.get?_eq_none_iff.mp hrow row hmem)
  | some row =>
    have hid : (expiring now row).id = certId := Table.key_of_get? hrow
    have hunique : ∀ cert ∈ getExpiringCertificates certs (alertDays + 1) settings.includeRevoked
        now, cert.id = (expiring now row).id → cert = expiring now row := by
      intro cert hcert hsame
      obtain ⟨row', hrow', _, rfl⟩ := mem_getExpiringCertificates.mp hcert
      have hget : certs.get? certId = some row' :=
        Table.get?_eq_some_iff.mpr ⟨hrow', hsame.trans hid⟩
      rw [hrow] at hget
      rw [Option.some.inj hget]
    rw [← hid, findSome?_of_unique hunique, Option.filter_some]
    by_cases hmem : expiresWithin (alertDays + 1) settings.includeRevoked now row = true
    · rw [if_pos hmem, if_pos]
      · rfl
      · exact mem_getExpiringCertificates.mpr ⟨row, Table.mem_of_get? hrow, hmem, rfl⟩
    · rw [if_neg hmem, if_neg]
      · rfl
      · intro hlisted
        obtain ⟨row', hrow', hwithin, hsame⟩ := mem_getExpiringCertificates.mp hlisted
        have hget : certs.get? certId = some row' :=
          Table.get?_eq_some_iff.mpr
            ⟨hrow', (congrArg ExpiringCertificate.id hsame).trans hid⟩
        rw [hrow] at hget
        rw [Option.some.inj hget] at hmem
        exact hmem hwithin

theorem exists_sent (server : MailServer) (certs : Table Certificate) (now : Time)
    (henabled : config.enabled = true)
    (hfrom : config.smtpFrom.filter (· ≠ "") = none) (hrecipients : settings.recipients ≠ []) :
    ∃ p, settings.alertDays.foldlM (alertThreshold settings config server certs now) {} =
        (.ok p : Except (PyError × CheckProgress) CheckProgress) ∧
      ∀ certId, p.alerts.filter (·.certId = certId) =
        (settings.alertDays.findSome? fun alertDays =>
          ((certs.get? certId).filter fun row =>
            expiresWithin (alertDays + 1) settings.includeRevoked now row).bind fun row =>
              attempt settings server (alertDays, expiring now row)).toList := by
  have hthreshold (p : CheckProgress) (alertDays : ℤ) :
      ∃ p', alertThreshold settings config server certs now p alertDays =
          (.ok p' : Except (PyError × CheckProgress) CheckProgress) ∧
        p'.alerts = (((getExpiringCertificates certs (alertDays + 1) settings.includeRevoked
          now).map fun cert => (alertDays, cert)).foldl
            (serveOnce (attempt settings server) (fun pair => pair.2.id) Alert.certId)
            p.alerts) := by
    rw [List.foldl_map]
    exact exists_foldlM_eq_ok (alertCertificate_of_sends henabled hfrom hrecipients alertDays) _ p
  obtain ⟨p, hp, halerts⟩ : ∃ p, settings.alertDays.foldlM (alertThreshold settings config server
      certs now) {} = (.ok p : Except (PyError × CheckProgress) CheckProgress) ∧
        p.alerts = settings.alertDays.foldl (fun alerts alertDays =>
          ((getExpiringCertificates certs (alertDays + 1) settings.includeRevoked now).map
            fun cert => (alertDays, cert)).foldl
              (serveOnce (attempt settings server) (fun pair => pair.2.id) Alert.certId) alerts)
            [] := exists_foldlM_eq_ok hthreshold settings.alertDays
      (CheckProgress.mk [] [] [])
  refine ⟨p, hp, ?_⟩
  intro certId
  have hkey : ∀ pair alert, attempt settings server pair = some alert →
      alert.certId = pair.2.id := by
    intro pair alert hattempt
    unfold attempt at hattempt
    split_ifs at hattempt
    cases hattempt
    rfl
  rw [halerts, ← List.foldl_flatMap, filter_foldl_serveOnce hkey, List.filter_nil,
    if_pos rfl, findSome?_flatMap]
  congr 2
  funext alertDays
  rw [List.findSome?_map]
  exact findSome?_getExpiringCertificates certId alertDays

theorem sent_of_not_sends {smtp : Option SmtpConfig} (h : sendsAlerts settings smtp = false) :
    (checkAndSendAlerts settings smtp server certs now).sent.alerts = [] := by
  unfold checkAndSendAlerts
  by_cases henabled : settings.enabled = false
  · rw [if_pos henabled]
  · rw [if_neg henabled]
    cases hsmtp : smtp.filter SmtpConfig.enabled with
    | none => rfl
    | some config =>
      obtain ⟨hconfig, hready⟩ := Option.filter_eq_some_iff.mp hsmtp
      have hnot : config.smtpFrom.filter (· ≠ "") ≠ none ∨ settings.recipients = [] := by
        unfold sendsAlerts at h
        by_contra! hsends
        rw [hconfig, Option.any_some, hready, hsends.1,
          Bool.eq_true_of_not_eq_false henabled] at h
        simp [hsends.2] at h
      have hstill (alertDays : ℤ) (p : CheckProgress) (cert : ExpiringCertificate) :
          alertCertificate settings config server now alertDays p cert = .ok p ∨
            ∃ e, alertCertificate settings config server now alertDays p cert = .error (e, p) :=
        alertCertificate_of_not_sends hnot alertDays p cert
      have hthreshold (p : CheckProgress) (alertDays : ℤ) := foldlM_of_still (hstill alertDays)
        (getExpiringCertificates certs (alertDays + 1) settings.includeRevoked now) p
      rcases foldlM_of_still hthreshold settings.alertDays {} with hp | ⟨e, hp⟩
      · change settings.alertDays.foldlM (alertThreshold settings config server certs now) {} =
          .ok {} at hp
        dsimp only
        rw [hp]
      · change settings.alertDays.foldlM (alertThreshold settings config server certs now) {} =
          .error (e, {}) at hp
        dsimp only
        rw [hp]

theorem attempt_expiring {row : Certificate} {validTo : Time} (alertDays : ℤ)
    (hvalid : row.validTo = some validTo) :
    (((some row).filter fun row =>
        expiresWithin (alertDays + 1) settings.includeRevoked now row).bind fun row =>
      attempt settings server (alertDays, expiring now row)) =
      if (now < validTo && (settings.includeRevoked || !row.revoked)) &&
          (inWindow alertDays (daysUntil now validTo) && (server row.id alertDays).toBool) then
        some ⟨row.id, some validTo, alertDays, daysUntil now validTo, settings.recipients⟩
      else none := by
  have hdays : (expiring now row).daysUntilExpiry = daysUntil now validTo := by
    simp [expiring, hvalid]
  have hwithin (hwindow : inWindow alertDays (daysUntil now validTo) = true) :
      validTo ≤ now + days (alertDays + 1) := by
    have hfloor : ∀ v n d : ℤ, (v - n) / 86400 ≤ d → v ≤ n + (d + 1) * 86400 := by
      intro v n d hle
      omega
    exact hfloor validTo now alertDays (of_decide_eq_true (Bool.and_eq_true_iff.mp hwindow).1)
  rw [Option.filter_some]
  unfold expiresWithin
  rw [hvalid, Option.any_some]
  by_cases hwindow : inWindow alertDays (daysUntil now validTo) = true
  · by_cases hrow : (decide (now < validTo) && (settings.includeRevoked || !row.revoked)) = true
    · have hin : (decide (validTo ≤ now + days (alertDays + 1)) && decide (now < validTo) &&
          (settings.includeRevoked || !row.revoked)) = true := by
        rw [Bool.and_assoc, hrow, decide_eq_true (hwithin hwindow)]
        rfl
      rw [if_pos hin, Option.bind_some]
      unfold attempt
      dsimp only
      rw [hdays, hrow, Bool.true_and]
      simp only [expiring, hvalid]
    · have hout : ¬(decide (validTo ≤ now + days (alertDays + 1)) && decide (now < validTo) &&
          (settings.includeRevoked || !row.revoked)) = true := by
        rw [Bool.and_assoc, Bool.eq_false_iff.mpr hrow, Bool.and_false]
        exact Bool.false_ne_true
      rw [if_neg hout, Bool.eq_false_iff.mpr hrow, Bool.false_and]
      rfl
  · have hnone : attempt settings server (alertDays, expiring now row) = none := by
      unfold attempt
      dsimp only
      rw [hdays, Bool.eq_false_iff.mpr hwindow, Bool.false_and]
      rfl
    rw [Bool.eq_false_iff.mpr hwindow, Bool.false_and, Bool.and_false, if_neg Bool.false_ne_true]
    split_ifs
    · exact hnone
    · rfl

theorem exists_of_sendsAlerts {smtp : Option SmtpConfig} (h : sendsAlerts settings smtp = true) :
    ∃ config, settings.enabled = true ∧ smtp = some config ∧ config.enabled = true ∧
      config.smtpFrom.filter (· ≠ "") = none ∧ settings.recipients ≠ [] := by
  unfold sendsAlerts at h
  simp only [Bool.and_eq_true, decide_eq_true_iff, Option.any_eq_true, Option.isNone_iff_eq_none]
    at h
  obtain ⟨⟨henabled, config, hsmtp, hready, hfrom⟩, hrecipients⟩ := h
  exact ⟨config, henabled, hsmtp, hready, hfrom, hrecipients⟩

theorem sent_of_sends {smtp : Option SmtpConfig} (h : sendsAlerts settings smtp = true)
    (certId : ℕ) :
    (checkAndSendAlerts settings smtp server certs now).sent.alerts.filter (·.certId = certId) =
      (settings.alertDays.findSome? fun alertDays =>
        ((certs.get? certId).filter fun row =>
          expiresWithin (alertDays + 1) settings.includeRevoked now row).bind fun row =>
            attempt settings server (alertDays, expiring now row)).toList := by
  obtain ⟨config, henabled, rfl, hready, hfrom, hrecipients⟩ := exists_of_sendsAlerts h
  obtain ⟨p, hp, halerts⟩ := exists_sent server certs now hready hfrom hrecipients
  unfold checkAndSendAlerts
  rw [henabled, if_neg (by decide), Option.filter_some, if_pos hready]
  dsimp only
  rw [hp]
  exact halerts certId

theorem thresholdsOf_sent (settings : ExpiryAlertSettings) (c : ExpiryCheck) (certId : ℕ)
    (validTo : Time) :
    thresholdsOf (checkAndSendAlerts settings c.smtp c.server c.certs c.now).sent.alerts certId
      validTo = (thresholdAt settings c certId validTo).toList := by
  unfold thresholdAt
  cases hsends : sendsAlerts settings c.smtp with
  | false =>
    rw [sent_of_not_sends hsends]
    rfl
  | true =>
    unfold thresholdsOf
    rw [sent_of_sends hsends, Bool.true_and]
    have hnever : (settings.alertDays.findSome? fun _ => (none : Option Alert)) = none :=
      List.findSome?_eq_none_iff.mpr fun _ _ => rfl
    have hmiss : (settings.alertDays.find? fun _ => false) = none := by simp
    cases hrow : c.certs.get? certId with
    | none => simp [hnever]
    | some row =>
      rw [Option.any_some]
      cases hvalid : row.validTo with
      | none =>
        have hnone (alertDays : ℤ) :
            expiresWithin (alertDays + 1) settings.includeRevoked c.now row = false := by
          simp [expiresWithin, hvalid]
        simp [hnone, Option.filter_some, hnever]
      | some time =>
        have hid : row.id = certId := Table.key_of_get? hrow
        simp only [attempt_expiring _ hvalid, findSome?_ite]
        by_cases htime : time = validTo
        · subst htime
          rw [decide_eq_true rfl, Bool.true_and, Bool.and_comm (decide _), hid]
          cases settings.includeRevoked || !row.revoked with
          | false => simp [hmiss]
          | true =>
            by_cases hnow : c.now < time
            · simp only [hnow, decide_true, Bool.true_and, if_true]
              cases settings.alertDays.find? fun alertDays =>
                  inWindow alertDays (daysUntil c.now time) &&
                    (c.server certId alertDays).toBool with
              | none => rfl
              | some alertDays => simp
            · simp [hnow, hmiss]
        · have hother : some time ≠ some validTo := fun heq => htime (Option.some.inj heq)
          rw [decide_eq_false hother]
          simp [htime]

end Check

section Runs

def checksOf (es : List ExpiryEvent) : List ExpiryCheck :=
  es.filterMap fun
    | .check c => some c
    | .restart => none

def inForce (settings : ExpiryAlertSettings) :
    List ExpiryEvent → List (ExpiryAlertSettings × ExpiryCheck)
  | [] => []
  | .check c :: es => (settings, c) :: inForce settings es
  | .restart :: es => inForce {} es

def Holds (c : ExpiryCheck) (certId : ℕ) (validTo : Time) : Prop :=
  ∃ cert ∈ c.certs, cert.id = certId ∧ cert.validTo = some validTo ∧ cert.revoked = false

/-- A certificate crosses a threshold while it is stored: a check finds it above, and a later one
at it or below, but not expired. -/
def Crosses (es : List ExpiryEvent) (certId : ℕ) (validTo : Time) (alertDays : ℤ) : Prop :=
  ∃ c c', [c, c'].Sublist (checksOf es) ∧
    Holds c certId validTo ∧ alertDays < daysUntil c.now validTo ∧
      Holds c' certId validTo ∧ c'.now < validTo ∧ daysUntil c'.now validTo ≤ alertDays

def Reached (es : List ExpiryEvent) (validTo : Time) (alertDays : ℤ) : Prop :=
  ∃ c ∈ checksOf es, daysUntil c.now validTo ≤ alertDays

/-- In a run each certificate gets one alert for each threshold that it crosses, and none for one
that it has not reached. -/
structure AlertsOnce (settings : ExpiryAlertSettings) (es : List ExpiryEvent) : Prop where
  once : ∀ certId validTo, ∀ alertDays ∈ settings.alertDays,
    Crosses es certId validTo alertDays →
      (thresholdsOf (run ExpiryService.step ⟨settings, []⟩ es).alerts certId validTo).count
        alertDays = 1
  none : ∀ certId validTo alertDays, ¬Reached es validTo alertDays →
    alertDays ∉ thresholdsOf (run ExpiryService.step ⟨settings, []⟩ es).alerts certId validTo

variable {settings : ExpiryAlertSettings} {certId : ℕ} {validTo : Time} {alertDays : ℤ}

theorem settings_after (settings : ExpiryAlertSettings) (c : ExpiryCheck) :
    ∃ lastRun total, (checkAndSendAlerts settings c.smtp c.server c.certs c.now).settings =
      { settings with lastRun := lastRun, totalAlertsSent := total } := by
  unfold checkAndSendAlerts
  split_ifs with henabled
  · exact ⟨settings.lastRun, settings.totalAlertsSent, rfl⟩
  · cases c.smtp.filter SmtpConfig.enabled with
    | none => exact ⟨settings.lastRun, settings.totalAlertsSent, rfl⟩
    | some config =>
      dsimp only
      cases settings.alertDays.foldlM (alertThreshold settings config c.server c.certs c.now) {}
        with
      | error e => exact ⟨settings.lastRun, settings.totalAlertsSent, rfl⟩
      | ok p => exact ⟨_, _, rfl⟩

theorem thresholdsOf_append (alerts alerts' : List Alert) :
    thresholdsOf (alerts ++ alerts') certId validTo =
      thresholdsOf alerts certId validTo ++ thresholdsOf alerts' certId validTo := by
  unfold thresholdsOf
  rw [List.filter_append, List.filter_append, List.map_append]

theorem filterMap_inForce (settings : ExpiryAlertSettings) (lastRun : Option Time) (total : ℕ)
    (es : List ExpiryEvent) (certId : ℕ) (validTo : Time) :
    ((inForce { settings with lastRun := lastRun, totalAlertsSent := total } es).filterMap fun p =>
        thresholdAt p.1 p.2 certId validTo) =
      (inForce settings es).filterMap fun p => thresholdAt p.1 p.2 certId validTo := by
  induction es with
  | nil => rfl
  | cons e es ih =>
    cases e with
    | check c =>
      have hsame : thresholdAt { settings with lastRun := lastRun, totalAlertsSent := total } c
          certId validTo = thresholdAt settings c certId validTo := rfl
      simp only [inForce, List.filterMap_cons, ih, hsame]
    | restart => rfl

theorem thresholdsOf_run (s : ExpiryService) (es : List ExpiryEvent) (certId : ℕ)
    (validTo : Time) :
    thresholdsOf (run ExpiryService.step s es).alerts certId validTo =
      thresholdsOf s.alerts certId validTo ++
        (inForce s.settings es).filterMap fun p => thresholdAt p.1 p.2 certId validTo := by
  induction es generalizing s with
  | nil => exact (List.append_nil _).symm
  | cons e es ih =>
    rw [run_cons, ih]
    cases e with
    | check c =>
      obtain ⟨lastRun, total, hsettings⟩ := settings_after s.settings c
      have hstep : s.step (.check c) = ⟨{ s.settings with
          lastRun := lastRun, totalAlertsSent := total }, s.alerts ++
            (checkAndSendAlerts s.settings c.smtp c.server c.certs c.now).sent.alerts⟩ := by
        rw [← hsettings]
        rfl
      rw [hstep, filterMap_inForce, thresholdsOf_append, thresholdsOf_sent, List.append_assoc]
      congr 1
      rw [inForce, List.filterMap_cons]
      cases thresholdAt s.settings c certId validTo with
      | none => rfl
      | some d => rfl
    | restart => rfl

theorem daysUntil_le_of_thresholdAt {c : ExpiryCheck}
    (h : thresholdAt settings c certId validTo = some alertDays) :
    daysUntil c.now validTo ≤ alertDays := by
  unfold thresholdAt at h
  split_ifs at h
  have hfound := List.find?_some h
  exact of_decide_eq_true (Bool.and_eq_true_iff.mp (Bool.and_eq_true_iff.mp hfound).1).1

theorem mem_checksOf_of_mem_inForce {es : List ExpiryEvent}
    {p : ExpiryAlertSettings × ExpiryCheck} (h : p ∈ inForce settings es) : p.2 ∈ checksOf es := by
  induction es generalizing settings with
  | nil => cases h
  | cons e es ih =>
    cases e with
    | check c =>
      rcases List.mem_cons.mp h with rfl | h
      · exact List.mem_cons_self
      · exact List.mem_cons_of_mem _ (ih h)
    | restart => exact ih h

/-- Each crossed threshold is alerted for once exactly if one check of the run falls to it. -/
theorem alertsOnce_iff (settings : ExpiryAlertSettings) (es : List ExpiryEvent) :
    AlertsOnce settings es ↔ ∀ certId validTo, ∀ alertDays ∈ settings.alertDays,
      Crosses es certId validTo alertDays →
        ((inForce settings es).filterMap fun p => thresholdAt p.1 p.2 certId validTo).count
          alertDays = 1 := by
  have hrun (certId : ℕ) (validTo : Time) :
      thresholdsOf (run ExpiryService.step ⟨settings, []⟩ es).alerts certId validTo =
        (inForce settings es).filterMap fun p => thresholdAt p.1 p.2 certId validTo :=
    thresholdsOf_run ⟨settings, []⟩ es certId validTo
  constructor
  · intro h certId validTo alertDays hmem hcrosses
    rw [← hrun]
    exact h.once certId validTo alertDays hmem hcrosses
  · intro h
    constructor
    case once =>
      intro certId validTo alertDays hmem hcrosses
      rw [hrun]
      exact h certId validTo alertDays hmem hcrosses
    case none =>
      intro certId validTo alertDays hnot hmem
      rw [hrun] at hmem
      obtain ⟨p, hp, hfor⟩ := List.mem_filterMap.mp hmem
      exact hnot ⟨p.2, mem_checksOf_of_mem_inForce hp, daysUntil_le_of_thresholdAt hfor⟩

def sampleLeaf : Certificate :=
  { id := 1, refid := "leaf", descr := "www", validTo := some (31 * 86400) }

def sampleCheck (now : Time) : ExpiryCheck :=
  { now := now, certs := (∅ : Table Certificate).insert sampleLeaf
    smtp := some ⟨some "ca@example.com", true⟩, server := fun _ _ => .ok () }

/-- A certificate crosses thirty days between two daily checks, and no alert is sent. -/
theorem crossed_without_alert :
    ¬AlertsOnce {} [.check (sampleCheck 0), .check (sampleCheck 86400)] := by
  intro h
  have hmem : sampleLeaf ∈ (∅ : Table Certificate).insert sampleLeaf := by decide
  have hholds (now : Time) : Holds (sampleCheck now) 1 (31 * 86400) :=
    ⟨sampleLeaf, hmem, rfl, rfl, rfl⟩
  have hcrosses : Crosses [.check (sampleCheck 0), .check (sampleCheck 86400)] 1 (31 * 86400) 30 :=
    ⟨sampleCheck 0, sampleCheck 86400, List.Sublist.refl _, hholds 0, by decide, hholds 86400,
      by decide, by decide⟩
  have honce := h.once 1 (31 * 86400) 30 (by decide) hcrosses
  rw [thresholdsOf_run] at honce
  revert honce
  decide

end Runs

end Notifications

end CaManager
