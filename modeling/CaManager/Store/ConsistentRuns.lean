import CaManager.Store.ImportWriters

/-!
# Runs that keep the rows consistent

Everything that creates, signs, imports, renews or revokes, or attaches a key, as one machine. A
bulk route commits after each of its identifiers, so each of these is an event of its own.
-/

namespace CaManager

open Library

namespace RowConsistency

/-- The writers of authorities' and certificates' rows. -/
inductive Event
  | createCa (r : CAService.CreateRequest) (d : Draw)
  | importCa (descr : String) (pem : CertPem) (key : Option KeyPem) (username refid : String)
  | uploadCa (u : Upload) (refid : String)
  | uploadCertificate (u : Upload) (refid : String)
  | smartImport (c : Contents) (options : ImportOptions) (caRefids certRefids csrRefids : ℕ → String)
  | create (r : CertificateService.CreateRequest) (d : Draw)
  | apiCreate (body : Routes.CreateBody) (d : Draw)
  | importCertificate (descr : String) (x : X509) (keyPem : Option KeyPem) (chain : List X509)
      (username : String) (source : Option String) (refid : String)
  | generateCsr (descr : String) (subject : Name) (keyType : String) (sanDns sanIp : List String)
      (username : String) (d : Draw)
  | uploadCsr (u : CsrUpload) (refid : String)
  | importCsr (u : CsrUpload) (refid : String)
  | signCsr (certId : ℕ) (caref certType : String) (validityDays : ℤ) (serial : RandomSerial)
      (now : Time)
  | renew (certId : ℕ) (d : Draw)
  | bulkRenewOne (request : ℕ × Draw)
  | uploadPrivateKey (certId : ℕ) (key : UploadedKey)
  | uploadCsrPrivateKey (csrId : ℕ) (key : UploadedKey)
  | revoke (certId : ℕ) (reason username : String) (now : Time)
  | apiRevoke (certId : ℕ) (reason username : String) (now : Time)
  | bulkRevokeOne (reason username : String) (now : Time) (certId : ℕ)
  | unhold (certId : ℕ)

section Runs

variable [X509Library]

theorem links_apply (st : Store) (op : Op) : (st.apply op).links = st.links := by
  have hrules : CommitRules (fun _ _ => True) fun s => s.links = st.links := by
    refine ⟨fun ca hs => ?_, fun hs _ hadd => ?_, fun hs _ _ _ _ _ _ _ => hs,
      fun _ hs _ _ _ => hs, fun hs _ _ _ _ => hs, fun _ hs _ _ _ => hs, fun hs _ => hs,
      fun hs hcrl => ?_⟩
    · rw [IssuerGraph.links_countSerial, hs]
    · rw [IssuerGraph.links_addCertificate hadd, hs]
    · obtain ⟨_, _, _, _, _, _, rfl⟩ := CRLService.generateCrl_eq_ok hcrl
      exact hs
  exact hrules.step op rfl (admits_true st op)

variable [KeyIdLibrary]

def stored (st : Store) : Event → Store
  | .createCa r d => committed st (CAService.createInternalCa st r d)
  | .importCa descr pem key username refid =>
    committed st (CAService.importCa st descr pem key username refid)
  | .uploadCa u refid => (Routes.importCa st u refid).2
  | .uploadCertificate u refid => (Routes.importCertificate st u refid).2
  | .smartImport c options caRefids certRefids csrRefids =>
    committed st (SmartImporter.execute st (SmartImporter.Contents.bundle c) options caRefids
      certRefids csrRefids)
  | .create r d => committed st (CertificateService.createCertificate st r d)
  | .apiCreate body d => (Routes.createCertificate st body d).2
  | .importCertificate descr x keyPem chain username source refid =>
    committed st
      (CertificateService.importCertificate st descr x keyPem chain username source refid)
  | .generateCsr descr subject keyType sanDns sanIp username d =>
    committed st (CertificateService.generateCsr st descr subject keyType sanDns sanIp username d)
  | .uploadCsr u refid => (Routes.uploadCsr st u refid).2
  | .importCsr u refid => (Routes.importCsr st u refid).2
  | .signCsr certId caref certType validityDays serial now =>
    committed st (Prod.snd <$>
      CertificateService.signCsr st certId caref certType validityDays serial now)
  | .renew certId d => (Routes.renewCertificate st certId d).2
  | .bulkRenewOne request => Routes.bulkRenewOne st request
  | .uploadPrivateKey certId key => (Routes.uploadPrivateKey st certId key).2
  | .uploadCsrPrivateKey csrId key => (Routes.uploadCsrPrivateKey st csrId key).2
  | .revoke certId reason username now =>
    committed st (CertificateService.revokeCertificate st certId reason username now)
  | .apiRevoke certId reason username now =>
    (Routes.revokeCertificate st certId reason username now).2
  | .bulkRevokeOne reason username now certId =>
    Routes.bulkRevokeOne reason username now st certId
  | .unhold certId => (Routes.unholdCertificate st certId).2

def serve (h : History) (e : Event) : History := h.next (stored h.store e)

/-- What a call has to meet, if it goes through, for the rows to stay consistent. -/
def Condition (unset : Prop) (h : History) : Event → Prop
  | .createCa r d => Succeeds (CAService.createInternalCa h.store r d) → unset
  | .importCa descr pem key username refid =>
    Succeeds (CAService.importCa h.store descr pem key username refid) → unset ∧ Fits key pem.leaf
  | .uploadCa u refid =>
    ∀ parsed, u.parsed = .ok parsed →
      StoresCa unset h.store u parsed (.ok (u.filename.getD "pasted.pem")) refid
  | .uploadCertificate u refid => StoresUpload unset h u refid
  | .smartImport c options caRefids certRefids csrRefids =>
    Succeeds (SmartImporter.execute h.store (SmartImporter.Contents.bundle c) options caRefids
      certRefids csrRefids) →
    LinksSigned h.store (SmartImporter.Contents.bundle c) options caRefids certRefids
  | .importCertificate descr x keyPem chain username source refid =>
    Succeeds (CertificateService.importCertificate h.store descr x keyPem chain username source
      refid) → Fits keyPem x
  | .signCsr certId caref certType validityDays serial now =>
    Succeeds (CertificateService.signCsr h.store certId caref certType validityDays serial now) →
    ∀ row ∈ h.store.certificates.get? certId, row.revoked = false
  | .renew certId d => RenewsNamed h.store (Routes.issuingCa h.store) certId d
  | .bulkRenewOne request => RenewsNamed h.store (linkedAuthority h.store) request.1 request.2
  | .uploadPrivateKey certId key => KeyMatches h.store certId key
  | .uploadCsrPrivateKey csrId key => KeyMatches h.store csrId key
  | _ => True

def RowsConsistent (unset : Prop) (h : History) : Prop := Consistent unset h.store h.revokedFor

variable {unset : Prop} {h : History}

theorem rowsConsistent_serve_iff (hrooted : IssuerGraph.Rooted h.store.links)
    (hold : RowsConsistent unset h) (e : Event) :
    RowsConsistent unset (serve h e) ↔ Condition unset h e := by
  have hdistinct := hrooted.distinctRefids
  have hunconditional : ∀ result : Except PyError Store,
      (∀ st', result = .ok st' → Writes unset h st' True) →
        Writes unset h (committed h.store result) True := by
    intro result hok
    obtain ⟨hflags, hiff⟩ := writes_committed hold hok
    exact ⟨hflags, hiff.trans (iff_of_true (fun _ => trivial) trivial)⟩
  cases e with
  | createCa r d => exact (writes_committed hold fun st' hok => writes_createCa hold hok).next
  | importCa descr pem key username refid =>
    exact (writes_committed hold fun st' hok => writes_importCa hold hok).next
  | uploadCa u refid => exact (writes_uploadCa u refid hold hdistinct).next
  | uploadCertificate u refid => exact (writes_uploadCertificate u refid hold hdistinct).next
  | smartImport c options caRefids certRefids csrRefids =>
    exact (writes_committed hold fun st' hok => writes_smartImport hrooted hold hok).next
  | create r d => exact (hunconditional _ fun st' hok => writes_create hold hok).next
  | apiCreate body d => exact (writes_apiCreate body d hold).next
  | importCertificate descr x keyPem chain username source refid =>
    exact (writes_committed hold fun st' hok => writes_importCertificate hold hok).next
  | generateCsr descr subject keyType sanDns sanIp username d =>
    exact (hunconditional _ fun st' hok => writes_generateCsr hold hok).next
  | uploadCsr u refid => exact (writes_uploadCsr u refid hold).next
  | importCsr u refid => exact (writes_importCsr u refid hold).next
  | signCsr certId caref certType validityDays serial now =>
    have hwrites : Writes unset h
        (committed h.store (Prod.snd <$>
          CertificateService.signCsr h.store certId caref certType validityDays serial now))
        (Succeeds (Prod.snd <$>
          CertificateService.signCsr h.store certId caref certType validityDays serial now) →
          ∀ row ∈ h.store.certificates.get? certId, row.revoked = false) := by
      refine writes_committed hold fun st' hok => ?_
      obtain ⟨⟨x, st''⟩, hsign, rfl⟩ := map_eq_ok.mp hok
      exact writes_signCsr hold hsign
    rw [succeeds_map] at hwrites
    exact hwrites.next
  | renew certId d => exact (writes_renew certId d hold).next
  | bulkRenewOne request => exact (writes_bulkRenewOne request hold).next
  | uploadPrivateKey certId key => exact (writes_uploadPrivateKey certId key hold).next
  | uploadCsrPrivateKey csrId key => exact (writes_uploadCsrPrivateKey csrId key hold).next
  | revoke certId reason username now =>
    exact iff_of_true (consistent_next_of_cases hold (committed_cases h.store _)) trivial
  | apiRevoke certId reason username now =>
    exact iff_of_true (consistent_next_of_cases hold
      (Routes.revokeCertificate_cases h.store certId reason username now)) trivial
  | bulkRevokeOne reason username now certId =>
    exact iff_of_true (consistent_next_of_cases hold
      (Routes.bulkRevokeOne_cases reason username now h.store certId)) trivial
  | unhold certId => exact (writes_unhold certId hold).next

theorem rooted_serve (hrooted : IssuerGraph.Rooted h.store.links) (e : Event) :
    IssuerGraph.Rooted (serve h e).store.links := by
  have hcommitted : ∀ result : Except PyError Store,
      (∀ st', result = .ok st' → IssuerGraph.Grows h.store.links st'.links) →
        IssuerGraph.Rooted (committed h.store result).links := by
    intro result hok
    refine holds_of_committed (P := fun s => IssuerGraph.Rooted s.links) hrooted fun st' hst' => ?_
    exact (hok st' hst').rooted hrooted
  have hsame : ∀ st' : Store, st'.links = h.store.links → IssuerGraph.Rooted st'.links := by
    intro st' hlinks
    rw [hlinks]
    exact hrooted
  have hcases : ∀ {st' : Store} {Q : Prop}, st' = h.store ∨ Q → (Q → st'.links = h.store.links) →
      IssuerGraph.Rooted st'.links := by
    intro st' Q hst' hQ
    rcases hst' with rfl | hq
    · exact hrooted
    · exact hsame st' (hQ hq)
  cases e with
  | createCa r d => exact hcommitted _ fun _ => IssuerGraph.grows_createInternalCa
  | importCa descr pem key username refid => exact hcommitted _ fun _ => IssuerGraph.grows_importCa
  | uploadCa u refid => exact (IssuerGraph.grows_uploadCa u refid).rooted hrooted
  | uploadCertificate u refid => exact (IssuerGraph.grows_uploadCertificate u refid).rooted hrooted
  | smartImport c options caRefids certRefids csrRefids =>
    exact hcommitted _ fun _ => IssuerGraph.grows_execute
  | create r d => exact hsame _ (links_apply h.store (.create r d))
  | apiCreate body d => exact hsame _ (links_apply h.store (.apiCreate body d))
  | importCertificate descr x keyPem chain username source refid =>
    exact hsame _ (links_apply h.store
      (.importCertificate descr x keyPem chain username source refid))
  | generateCsr descr subject keyType sanDns sanIp username d =>
    exact hsame _ (links_apply h.store
      (.generateCsr descr subject keyType sanDns sanIp username d))
  | uploadCsr u refid =>
    refine hcases (Routes.uploadCsr_cases h.store u refid) ?_
    exact fun ⟨_, hadd⟩ => IssuerGraph.links_addCertificate hadd
  | importCsr u refid =>
    refine hcases (Routes.importCsr_cases h.store u refid) ?_
    exact fun ⟨_, _, hadd⟩ => IssuerGraph.links_addCertificate hadd
  | signCsr certId caref certType validityDays serial now =>
    exact hsame _ (links_apply h.store (.signCsr certId caref certType validityDays serial now))
  | renew certId d => exact hsame _ (links_apply h.store (.renew certId d))
  | bulkRenewOne request => exact hsame _ (links_apply h.store (.bulkRenew [request]))
  | uploadPrivateKey certId key =>
    refine hcases (Routes.uploadPrivateKey_cases h.store certId key) ?_
    exact fun ⟨_, _, _, _, _, _, heq⟩ => (congrArg Store.links heq).trans rfl
  | uploadCsrPrivateKey csrId key =>
    refine hcases (Routes.uploadCsrPrivateKey_cases h.store csrId key) ?_
    exact fun ⟨_, _, _, _, _, _, heq⟩ => (congrArg Store.links heq).trans rfl
  | revoke certId reason username now =>
    exact hsame _ (links_apply h.store (.revoke certId reason username now))
  | apiRevoke certId reason username now =>
    exact hsame _ (links_apply h.store (.apiRevoke certId reason username now))
  | bulkRevokeOne reason username now certId =>
    exact hsame _ (links_apply h.store (.bulkRevoke [certId] reason username now))
  | unhold certId => exact hsame _ (links_apply h.store (.unhold certId))

theorem store_run_bulkRenew (h : History) (requests : List (ℕ × Draw)) :
    (run serve h (requests.map .bulkRenewOne)).store =
      Routes.bulkRenewCertificates h.store requests := by
  induction requests generalizing h with
  | nil => rfl
  | cons request requests ih => exact ih (serve h (.bulkRenewOne request))

theorem store_run_bulkRevoke (h : History) (ids : List ℕ) (reason username : String) (now : Time) :
    (run serve h (ids.map (.bulkRevokeOne reason username now))).store =
      Routes.bulkRevokeCertificates h.store ids reason username now := by
  induction ids generalizing h with
  | nil => rfl
  | cons certId ids ih => exact ih (serve h (.bulkRevokeOne reason username now certId))

end Runs

def Event.isPlain : Event → Bool
  | .createCa _ _ | .create _ _ | .apiCreate _ _ | .generateCsr _ _ _ _ _ _ _ | .uploadCsr _ _
  | .importCsr _ _ | .revoke _ _ _ _ | .apiRevoke _ _ _ _ | .bulkRevokeOne _ _ _ _ | .unhold _ => true
  | _ => false

def emptyHistory (crls : Table CrlMetadata) (ocspResponses : Table OcspResponse)
    (keyEncryptionKey : Option ℕ) : History :=
  ⟨⟨∅, ∅, crls, ocspResponses, keyEncryptionKey⟩, fun _ => none⟩

section Empty

variable (unset : Prop) (crls : Table CrlMetadata) (ocspResponses : Table OcspResponse)
  (keyEncryptionKey : Option ℕ)

theorem rooted_emptyHistory :
    IssuerGraph.Rooted (emptyHistory crls ocspResponses keyEncryptionKey).store.links :=
  ⟨List.nodup_nil, fun _ hl => absurd hl List.not_mem_nil⟩

variable [X509Library]

theorem rowsConsistent_emptyHistory :
    RowsConsistent unset (emptyHistory crls ocspResponses keyEncryptionKey) :=
  ⟨fun ca hca => absurd hca (Table.not_mem_empty ca),
    fun c hc => absurd hc (Table.not_mem_empty c)⟩

variable [KeyIdLibrary]

theorem condition_of_isPlain {h : History} {e : Event} (he : e.isPlain = true) :
    Condition True h e := by
  cases e with
  | createCa r d => exact fun _ => trivial
  | create r d => trivial
  | apiCreate body d => trivial
  | generateCsr descr subject keyType sanDns sanIp username d => trivial
  | uploadCsr u refid => trivial
  | importCsr u refid => trivial
  | revoke certId reason username now => trivial
  | apiRevoke certId reason username now => trivial
  | bulkRevokeOne reason username now certId => trivial
  | unhold certId => trivial
  | _ => cases he

theorem rowsConsistent_of_isPlain {es : List Event} (hes : ∀ e ∈ es, e.isPlain = true) :
    RowsConsistent True (run serve (emptyHistory crls ocspResponses keyEncryptionKey) es) := by
  have hrooted := rooted_emptyHistory crls ocspResponses keyEncryptionKey
  have hconsistent := rowsConsistent_emptyHistory True crls ocspResponses keyEncryptionKey
  generalize emptyHistory crls ocspResponses keyEncryptionKey = h at hrooted hconsistent ⊢
  induction es generalizing h with
  | nil => exact hconsistent
  | cons e es ih =>
    have hplain := condition_of_isPlain (h := h) (hes e List.mem_cons_self)
    exact ih (fun e' he' => hes e' (List.mem_cons_of_mem e he')) (serve h e)
      (rooted_serve hrooted e) ((rowsConsistent_serve_iff hrooted hconsistent e).mpr hplain)

end Empty

/-- From any store without rows, every row describes the certificate that it holds in every state
that a run reaches, exactly if every call that goes through meets its condition: no key is stored
beside a certificate or request of another key, no certificate takes a row whose serial number,
link or revoked flag is another's, no request that was revoked is signed, no renewal changes the
issuer, and every authority that is found for a link signed what is linked to it. -/
theorem rows_consistent_run_iff [X509Library] [KeyIdLibrary] (unset : Prop)
    (crls : Table CrlMetadata) (ocspResponses : Table OcspResponse) (keyEncryptionKey : Option ℕ)
    (es : List Event) :
    (∀ pre, pre <+: es →
      RowsConsistent unset (run serve (emptyHistory crls ocspResponses keyEncryptionKey) pre)) ↔
      Meets serve (Condition unset) (emptyHistory crls ocspResponses keyEncryptionKey) es := by
  exact forall_prefix_iff_meets (P := RowsConsistent unset)
    (I := fun h => IssuerGraph.Rooted h.store.links)
    (fun h e hI hP => rowsConsistent_serve_iff hI hP e)
    (fun h e hI _ _ => rooted_serve hI e) es
    (rooted_emptyHistory crls ocspResponses keyEncryptionKey)
    (rowsConsistent_emptyHistory unset crls ocspResponses keyEncryptionKey)

section Sample

def unsealedHistory : History := emptyHistory ∅ ∅ none

def reissued (serial : ℤ) (key : PublicKey) : X509 :=
  { serial, subject := sampleName "www", issuer := sampleName "Root", publicKey := key
    signedBy := ⟨.rsa 2048, 1⟩, notBefore := 0, notAfter := days 90
    extensions := [⟨.basicConstraints false none, true⟩] }

/-- Somebody else's request is imported, and another key is attached to it. -/
def keyedRequest : List Event :=
  [.importCsr { pem := .text (.ok ⟨sampleName "www", ⟨.rsa 2048, 5⟩, true, []⟩) } "csr",
    .uploadCsrPrivateKey 1 (.loaded ⟨⟨.rsa 2048, 6⟩⟩ true)]

/-- A certificate is made and revoked, and the one that replaces it is imported over its row. -/
def importedOver : List Event :=
  [.createCa { descr := "Root", subject := sampleName "Root" } (sampleDraw 1 "root" 0),
    .create { descr := "www", caref := "root", subject := sampleName "www" }
      (sampleDraw 7 "cert" 0),
    .revoke 1 "superseded" "admin" 100,
    .uploadCertificate { parsed := .ok ⟨reissued 9 ⟨.rsa 2048, 9⟩, none⟩ } "other"]

theorem rowsConsistent_revoked :
    let _ := sampleLibrary
    let _ := SkiAkiBackfill.numberedKeyIds
    RowsConsistent True (run serve unsealedHistory (importedOver.take 3)) := by
  intro _ _
  exact rowsConsistent_of_isPlain ∅ ∅ none (by decide)

def keyedRequestHistory : History :=
  let _ := sampleLibrary
  let _ := SkiAkiBackfill.numberedKeyIds
  run serve unsealedHistory keyedRequest

def importedOverHistory : History :=
  let _ := sampleLibrary
  let _ := SkiAkiBackfill.numberedKeyIds
  run serve unsealedHistory importedOver

/-- The request has another's key. The row of the new certificate is still revoked, with the serial
number and the key of the old one. -/
theorem stale_columns :
    (¬∃ unset, @RowsConsistent sampleLibrary unset keyedRequestHistory) ∧
      ¬∃ unset, @RowsConsistent sampleLibrary unset importedOverHistory := by
  let _ := sampleLibrary
  have hkey : ∃ c ∈ keyedRequestHistory.store.certificates.rows, c.held = none ∧
      ∃ csr ∈ c.csr.toList, ∃ e ∈ c.prv.toList,
        ¬e.content.publicKey = csr.content.publicKey := by decide +kernel
  have hflag : ∃ c ∈ importedOverHistory.store.certificates.rows, c.revoked = true ∧
      c.held = some (reissued 9 ⟨.rsa 2048, 9⟩) ∧
      ¬importedOverHistory.revokedFor c.id = c.held := by decide +kernel
  refine ⟨fun h => ?_, fun h => ?_⟩
  · obtain ⟨unset, hconsistent⟩ := h
    obtain ⟨c, hc, hheld, csr, hcsr, e, he, hother⟩ := hkey
    exact hother ((hconsistent.certificates c hc).unsigned hheld csr (Option.mem_toList.mp hcsr) e
      (Option.mem_toList.mp he))
  · obtain ⟨unset, hconsistent⟩ := h
    obtain ⟨c, hc, hrevoked, _, hother⟩ := hflag
    exact hother ((hconsistent.certificates c hc).revoked hrevoked)

end Sample

end RowConsistency

end CaManager
