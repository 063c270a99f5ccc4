import CaManager.Library.LinkedTransactions
import CaManager.Store.Routes

/-!
# Rows that name authorities, certificates, templates, accounts and orders

The tables with the columns that refer to other rows. Rows of authorities and certificates have
their refids as names, templates, domains and policies their names, accounts, orders,
authorizations and challenges their tokens, and settings their keys. Foreign keys are declared but
not enforced: a connection to the default database never switches them on. Columns that hold the
serial number or the fingerprint of an X.509 certificate refer to it and not to a row, and the
audit log and the log of notifications record what was; these are left out.
-/

namespace CaManager

open Library

namespace Deletions

inductive TableName
  | certificateAuthorities
  | certificates
  | certificateTemplates
  | crlMetadata
  | ocspResponses
  | acmeDomains
  | acmeLocalDomains
  | certificatePolicies
  | approvalRequests
  | acmeAccounts
  | acmeOrders
  | acmeAuthorizations
  | acmeChallenges
  | acmeClientOrders
  | discoveredCertificates
  | mscaRequests
  | scepRequests
  | systemConfig
  deriving Repr, DecidableEq

/-- A referring column with what it holds. The settings for the ACME and SCEP authorities may hold
a refid or an id. The challenge password of an authority is in a setting whose key has its id. -/
inductive Link
  | caParent (refid : String)
  | certificateCa (refid : String)
  | certificateTemplate (id : ℕ)
  | crlCa (id : ℕ)
  | ocspCa (id : ℕ)
  | acmeDomainCa (id : ℕ)
  | acmeLocalDomainCa (id : ℕ)
  | policyCa (id : ℕ)
  | policyTemplate (id : ℕ)
  | approvalCertificate (id : ℕ)
  | orderAccount (accountId : String)
  | orderCertificate (id : ℕ)
  | authorizationOrder (orderId : String)
  | challengeAuthorization (authorizationId : String)
  | clientOrderCertificate (id : ℕ)
  | discoveredCertificate (id : ℕ)
  | mscaCsr (id : ℕ)
  | mscaCertificate (id : ℕ)
  | scepCertificate (refid : String)
  | acmeIssuingCa (value : Address)
  | scepCa (value : Address)
  | scepChallenge (id : ℕ)
  | estCa (refid : String)
  | mtlsTrustedCa (refid : String)
  deriving Repr, DecidableEq

namespace Link

def target : Link → TableName
  | certificateTemplate _ | policyTemplate _ => .certificateTemplates
  | approvalCertificate _ | orderCertificate _ | clientOrderCertificate _
  | discoveredCertificate _ | mscaCsr _ | mscaCertificate _ | scepCertificate _ => .certificates
  | orderAccount _ => .acmeAccounts
  | authorizationOrder _ => .acmeOrders
  | challengeAuthorization _ => .acmeAuthorizations
  | caParent _ | certificateCa _ | crlCa _ | ocspCa _ | acmeDomainCa _ | acmeLocalDomainCa _
  | policyCa _ | acmeIssuingCa _ | scepCa _ | scepChallenge _ | estCa _ | mtlsTrustedCa _ =>
    .certificateAuthorities

def address : Link → Address
  | caParent s | certificateCa s | orderAccount s | authorizationOrder s
  | challengeAuthorization s | scepCertificate s | estCa s | mtlsTrustedCa s => .name s
  | certificateTemplate n | crlCa n | ocspCa n | acmeDomainCa n | acmeLocalDomainCa n | policyCa n
  | policyTemplate n | approvalCertificate n | orderCertificate n | clientOrderCertificate n
  | discoveredCertificate n | mscaCsr n | mscaCertificate n | scepChallenge n => .number n
  | acmeIssuingCa a | scepCa a => a

def required : Link → Bool
  | crlCa _ | ocspCa _ | acmeLocalDomainCa _ | orderAccount _ | authorizationOrder _
  | challengeAuthorization _ => true
  | _ => false

def isIssued : Link → Bool
  | caParent _ | certificateCa _ => true
  | _ => false

end Link

instance : Linking TableName Link := ⟨Link.target, Link.address, Link.required⟩

abbrev Row := Record TableName Link

abbrev Rows := Database TableName Link

def refid (i : Identity TableName) : String := i.name.getD ""

/-- The columns that the object mapper sets to null when it deletes a row: those of the relations
that the model of the row has, by itself or through a `backref`. -/
def cleared (i : Identity TableName) : List Link :=
  match i.table with
  | .certificateAuthorities =>
    [.certificateCa (refid i), .crlCa i.number, .ocspCa i.number, .policyCa i.number]
  | .certificates => [.discoveredCertificate i.number]
  | _ => []

/-- `db.session.delete(row)` after queries have deleted the rows with the dependent links. -/
def sessionDelete (i : Identity TableName) (dependents : List Link) : Deletion TableName Link where
  table := i.table
  number := i.number
  dependents := dependents
  cleared := cleared i

def Childless (db : Rows) (i : Identity TableName) : Prop :=
  ∀ r ∈ db.rows, ∀ l ∈ r.links, l.isIssued = true → ¬Names l i

instance (db : Rows) : DecidablePred (Childless db) := fun _ =>
  inferInstanceAs (Decidable (∀ r ∈ db.rows, ∀ l ∈ r.links, _))

end Deletions

end CaManager

/-!
# Requests that create, issue and delete

A request reads rows, is refused or not, and writes in a transaction. Between its reads and its
transaction other requests may write, and what it writes is by the rows as it read them. Of the
requests that delete, the checks are here with the texts of their refusals, and what is deleted and
set to null. Of the requests that create or issue, there are the rows they look up, and the rows
and links they write; where they refuse, nothing is written, and the other reasons for this are
left out.
-/

namespace CaManager

open Library

namespace Deletions

/-- What a request writes. A service that records the deletion in the audit log beforehand commits
with it, so that the mapper reads the row once more. -/
inductive Work
  | delete (i : Identity TableName) (dependents : List Link)
  | deleteReloaded (table : TableName) (id : ℕ)
  | write (w : Write TableName Link)

section Authorities

def childCas (db : Rows) (ca : Row) : ℕ := db.count (.caParent (refid ca.toIdentity))

def issuedCerts (db : Rows) (ca : Row) : ℕ := db.count (.certificateCa (refid ca.toIdentity))

def withoutCa (ca : Row) : Work :=
  .delete ca.toIdentity [.crlCa ca.number, .ocspCa ca.number]

def deleteCa (db : Rows) (caId : ℕ) : Except Response Work :=
  match db.get? .certificateAuthorities caId with
  | none => .error ⟨404, "CA not found"⟩
  | some ca =>
    if 0 < childCas db ca then
      .error ⟨409, s!"Cannot delete CA: {childCas db ca} intermediate CA(s) depend on it. " ++
        "Delete them first."⟩
    else if 0 < issuedCerts db ca then
      .error ⟨409, s!"Cannot delete CA: {issuedCerts db ca} certificate(s) were issued by it. " ++
        "Revoke and delete them first."⟩
    else .ok (withoutCa ca)

def bulkDeleteCa (db : Rows) (caId : ℕ) : Except String Work :=
  match db.get? .certificateAuthorities caId with
  | none => .error "Not found"
  | some ca =>
    if 0 < childCas db ca then
      .error s!"{childCas db ca} intermediate CA(s) depend on it"
    else if 0 < issuedCerts db ca then
      .error s!"{issuedCerts db ca} certificate(s) issued by it"
    else .ok (withoutCa ca)

/-- `CAService.delete_ca` -/
def serviceDeleteCa (db : Rows) (caId : ℕ) : Except PyError (Option Work) :=
  match db.get? .certificateAuthorities caId with
  | none => .ok none
  | some ca =>
    if 0 < issuedCerts db ca then
      .error (.valueError s!"CA is used by {issuedCerts db ca} certificate(s)")
    else if 0 < childCas db ca then
      .error (.valueError s!"CA is parent of {childCas db ca} intermediate CA(s)")
    else .ok (some (.deleteReloaded .certificateAuthorities caId))

end Authorities

section OtherDeletions

def deleteCertificate (db : Rows) (certId : ℕ) : Except Response Work :=
  match db.get? .certificates certId with
  | none => .error ⟨404, "Certificate not found"⟩
  | some cert => .ok (.delete cert.toIdentity [.approvalCertificate certId])

def bulkDeleteCertificate (db : Rows) (certId : ℕ) : Except String Work :=
  match db.get? .certificates certId with
  | none => .error "Not found"
  | some cert => .ok (.delete cert.toIdentity [.approvalCertificate certId])

/-- `CertificateService.delete_certificate`, with which signing requests are deleted, one by one
and in bulk. -/
def serviceDeleteCertificate (db : Rows) (certId : ℕ) : Option Work :=
  (db.get? .certificates certId).map fun _ => .deleteReloaded .certificates certId

/-- The certificate of a user goes with the row that lets the user sign in with it. -/
def deleteUserCertificate (db : Rows) (certId : ℕ) : Option Work :=
  (db.get? .certificates certId).map fun cert => .delete cert.toIdentity []

def deleteTemplate (db : Rows) (templateId : ℕ) : Except Response Work :=
  match db.get? .certificateTemplates templateId with
  | none => .error ⟨404, "Template not found"⟩
  | some template =>
    if template.isProtected then .error ⟨403, "Cannot delete system templates"⟩
    else .ok (.delete template.toIdentity [])

def bulkDeleteTemplate (db : Rows) (templateId : ℕ) : Except String Work :=
  match db.get? .certificateTemplates templateId with
  | none => .error "Not found"
  | some template =>
    if template.isProtected then .error "Cannot delete system template"
    else .ok (.delete template.toIdentity [])

/-- `TemplateService.delete_template` -/
def serviceDeleteTemplate (db : Rows) (templateId : ℕ) : Except PyError Work :=
  match db.get? .certificateTemplates templateId with
  | none => .error (.valueError "Template not found")
  | some template =>
    let inUse := db.count (.certificateTemplate templateId)
    if template.isProtected then .error (.valueError "Cannot delete system templates")
    else if 0 < inUse then
      .error (.valueError s!"Cannot delete template: {inUse} certificate(s) using this template")
    else .ok (.delete template.toIdentity [])

def linked (db : Rows) (table : TableName) (l : Link) : List Row :=
  db.rows.filter fun r => r.table = table ∧ l ∈ r.links

/-- What the route deletes of an order: the columns hold tokens and are compared with ids. -/
def orderDependents (db : Rows) (order : Row) : List Link :=
  (linked db .acmeAuthorizations (.authorizationOrder (refid order.toIdentity))).map
    (fun authz => .challengeAuthorization (toString authz.number)) ++
      [.authorizationOrder (toString order.number)]

/-- The mapper would delete the orders of the account with it, and their authorizations with them,
but by then there are no orders any more. -/
def deleteAcmeAccount (db : Rows) (accountId : ℕ) : Except Response Work :=
  match db.get? .acmeAccounts accountId with
  | none => .error ⟨404, "Account not found"⟩
  | some acc =>
    let orders := .orderAccount (refid acc.toIdentity)
    .ok (.delete acc.toIdentity
      ((linked db .acmeOrders orders).flatMap (orderDependents db) ++ [orders]))

end OtherDeletions

section Issuances

def adds (table : TableName) (name : Option String) (links : List Link) : Work :=
  .write { rows := [{ table, name, links }] }

def sets (row : Row) (replaced : Link → Bool) (links : List Link) : Work :=
  .write { assigned := some ⟨row.table, row.number, replaced, links⟩ }

def createInternalCa (db : Rows) (newRefid : String) (caref : Option String) : Option Work :=
  match caref with
  | none => some (adds .certificateAuthorities newRefid [])
  | some caref => (db.ofName .certificateAuthorities caref).map fun parent =>
      .write
        { touched := [(.certificateAuthorities, parent.number)]
          rows := [{ table := .certificateAuthorities, name := newRefid,
                     links := [.caParent caref] }] }

/-- `CertificateService.create_certificate`: the serial counter of the authority is in the same
transaction; a template is used if there is one, and recorded in any case. -/
def createCertificate (db : Rows) (newRefid caref : String) (templateId : Option ℕ) : Option Work :=
  (db.ofName .certificateAuthorities caref).map fun ca =>
    .write
      { touched := [(.certificateAuthorities, ca.number)]
        rows := [{ table := .certificates, name := newRefid,
                   links := .certificateCa caref :: templateId.toList.map .certificateTemplate }] }

/-- `POST /api/v2/certificates`, which leaves the counter of the authority alone. -/
def apiCreate (db : Rows) (newRefid : String) (caId : ℕ) : Option Work :=
  (db.get? .certificateAuthorities caId).map fun ca =>
    adds .certificates newRefid [.certificateCa (refid ca.toIdentity)]

def foundCa (db : Rows) (caId : Option ℕ) : List String :=
  (caId.bind (db.get? .certificateAuthorities)).toList.map fun ca => refid ca.toIdentity

/-- An imported authority is linked to one of its key identifier or subject. -/
def importCa (db : Rows) (newRefid : String) (parentId : Option ℕ) : Option Work :=
  some (adds .certificateAuthorities newRefid ((foundCa db parentId).map .caParent))

def importCertificate (db : Rows) (newRefid : String) (caId : Option ℕ) : Option Work :=
  some (adds .certificates newRefid ((foundCa db caId).map .certificateCa))

def generateCsr (newRefid : String) : Option Work := some (adds .certificates newRefid [])

def signCsr (db : Rows) (certId : ℕ) (caref : String) : Option Work := do
  let row ← db.get? .certificates certId
  let ca ← db.ofName .certificateAuthorities caref
  some (.write
    { touched := [(.certificateAuthorities, ca.number)]
      assigned := some ⟨.certificates, row.number, Link.isIssued, [.certificateCa caref]⟩ })

/-- An authority or a certificate without an issuer is linked to the authority of its key
identifier. -/
def rechain (db : Rows) (table : TableName) (id parentId : ℕ) : Option Work := do
  let row ← db.get? table id
  let parent ← db.get? .certificateAuthorities parentId
  let link := if table = .certificateAuthorities then Link.caParent else Link.certificateCa
  some (sets row Link.isIssued [link (refid parent.toIdentity)])

/-- A request that is approved at once: the certificate and the request in one transaction. -/
def autoApprove (db : Rows) (transactionId newRefid caref : String) : Option Work :=
  (db.ofName .certificateAuthorities caref).map fun _ =>
    .write
      { rows := [{ table := .certificates, name := newRefid, links := [.certificateCa caref] },
                 { table := .scepRequests, name := transactionId,
                   links := [.scepCertificate newRefid] }] }

def approveRequest (db : Rows) (transactionId newRefid caref : String) : Option Work := do
  let request ← db.ofName .scepRequests transactionId
  let _ ← db.ofName .certificateAuthorities caref
  some (.write
    { assigned := some ⟨.scepRequests, request.number, fun _ => true, [.scepCertificate newRefid]⟩
      rows := [{ table := .certificates, name := newRefid, links := [.certificateCa caref] }] })

def createTemplate (name : String) (isSystem : Bool) : Option Work :=
  some (.write { rows := [{ table := .certificateTemplates, name, isProtected := isSystem }] })

def generateCrl (db : Rows) (caId : ℕ) : Option Work :=
  (db.get? .certificateAuthorities caId).map fun _ => adds .crlMetadata none [.crlCa caId]

def cacheResponse (db : Rows) (caId : ℕ) : Option Work :=
  (db.get? .certificateAuthorities caId).map fun _ => adds .ocspResponses none [.ocspCa caId]

end Issuances

section Referrers

def withCa (db : Rows) (caId : Option ℕ) (work : Work) : Option Work :=
  match caId with
  | none => some work
  | some caId => (db.get? .certificateAuthorities caId).map fun _ => work

def createDomain (db : Rows) (domain : String) (issuingCaId : Option ℕ) : Option Work :=
  withCa db issuingCaId (adds .acmeDomains domain (issuingCaId.toList.map .acmeDomainCa))

def updateDomain (db : Rows) (domainId : ℕ) (issuingCaId : Option ℕ) : Option Work := do
  let domain ← db.get? .acmeDomains domainId
  withCa db issuingCaId (sets domain (fun _ => true) (issuingCaId.toList.map .acmeDomainCa))

def createLocalDomain (db : Rows) (domain : String) (issuingCaId : ℕ) : Option Work :=
  withCa db issuingCaId (adds .acmeLocalDomains domain [.acmeLocalDomainCa issuingCaId])

def updateLocalDomain (db : Rows) (domainId issuingCaId : ℕ) : Option Work := do
  let domain ← db.get? .acmeLocalDomains domainId
  withCa db issuingCaId (sets domain (fun _ => true) [.acmeLocalDomainCa issuingCaId])

def policyLinks (caId templateId : Option ℕ) : List Link :=
  caId.toList.map .policyCa ++ templateId.toList.map .policyTemplate

def createPolicy (name : String) (caId templateId : Option ℕ) : Option Work :=
  some (adds .certificatePolicies name (policyLinks caId templateId))

def updatePolicy (db : Rows) (policyId : ℕ) (caId templateId : Option (Option ℕ)) : Option Work :=
  (db.get? .certificatePolicies policyId).map fun policy =>
    sets policy
      (fun l => match l with
        | .policyCa _ => caId.isSome
        | .policyTemplate _ => templateId.isSome
        | _ => false)
      (policyLinks caId.join templateId.join)

def setConfig (db : Rows) (key : String) (links : List Link) : Work :=
  match db.ofName .systemConfig key with
  | some setting => sets setting (fun _ => true) links
  | none => adds .systemConfig key links

def updateAcmeSettings (db : Rows) (issuingCaId : Option Address) : Option Work :=
  some (setConfig db "acme.issuing_ca_id" (issuingCaId.toList.map .acmeIssuingCa))

def updateScepConfig (db : Rows) (caId : Option Address) : Option Work :=
  some (setConfig db "scep_ca_id" (caId.toList.map .scepCa))

def regenerateChallengePassword (db : Rows) (caId : ℕ) : Option Work :=
  (db.get? .certificateAuthorities caId).map fun _ =>
    setConfig db s!"scep_challenge_{caId}" [.scepChallenge caId]

def updateEstConfig (db : Rows) (caRefid : Option String) : Option Work :=
  some (setConfig db "est_ca_refid" (caRefid.toList.map .estCa))

/-- With an id the authority is looked up, and there is none where it is not found. -/
def updateEstConfigById (db : Rows) (caId : ℕ) : Option Work :=
  updateEstConfig db ((db.get? .certificateAuthorities caId).map fun ca => refid ca.toIdentity)

/-- The authority is looked up only where the sign-in with certificates is switched on. None stands
for an empty refid. -/
def updateMtlsSettings (db : Rows) (enabled : Bool) (trustedCaId : Option String) : Option Work :=
  if enabled ∧ trustedCaId.any fun s => (db.ofName .certificateAuthorities s).isNone then none
  else some (setConfig db "mtls_trusted_ca_id" (trustedCaId.toList.map .mtlsTrustedCa))

def newAccount (accountId : String) : Option Work := some (adds .acmeAccounts accountId [])

def createOrder (db : Rows) (accountId orderId : String)
    (authorizations : List (String × List String)) : Option Work :=
  (db.ofName .acmeAccounts accountId).map fun _ =>
    .write
      { rows :=
          { table := .acmeOrders, name := orderId, links := [.orderAccount accountId] } ::
            authorizations.flatMap fun (authorizationId, challenges) =>
              { table := .acmeAuthorizations, name := authorizationId,
                links := [.authorizationOrder orderId] } ::
                challenges.map fun challengeId =>
                  { table := .acmeChallenges, name := challengeId,
                    links := [.challengeAuthorization authorizationId] } }

def isOrderCertificate : Link → Bool
  | .orderCertificate _ => true
  | _ => false

/-- The certificate of an order is signed in a transaction of its own, and recorded afterwards. -/
def finalizeOrder (db : Rows) (orderId : String) (certId : ℕ) : Option Work := do
  let order ← db.ofName .acmeOrders orderId
  let cert ← db.get? .certificates certId
  some (sets order isOrderCertificate [.orderCertificate cert.number])

def requestClientOrder : Option Work := some (adds .acmeClientOrders none [])

/-- The certificate of a client's order is imported in a transaction of its own, and recorded
afterwards. -/
def recordClientCertificate (db : Rows) (orderId certId : ℕ) : Option Work := do
  let order ← db.get? .acmeClientOrders orderId
  let cert ← db.get? .certificates certId
  some (sets order (fun _ => true) [.clientOrderCertificate cert.number])

/-- A certificate that was found on the network, with the stored one of its fingerprint. -/
def discovered (db : Rows) (existing : Option ℕ) (certId : Option ℕ) : Option Work := do
  let links := (certId.bind (db.get? .certificates)).toList.map fun c =>
    Link.discoveredCertificate c.number
  match existing with
  | none => some (adds .discoveredCertificates none links)
  | some id => (db.get? .discoveredCertificates id).map fun row => sets row (fun _ => true) links

/-- `MicrosoftCAService.submit_csr`; the id of the request is recorded as it is given. -/
def submitCsr (csrId : Option ℕ) : Option Work :=
  some (adds .mscaRequests none (csrId.toList.map .mscaCsr))

end Referrers

/-- Two authorities with one key identifier are merged: the children and the certificates of one
are moved to the other, and it is deleted without the mapper. -/
def mergeDuplicate (db : Rows) (keeperId duplicateId : ℕ) : Option (Deletion TableName Link) := do
  let keeper ← db.get? .certificateAuthorities keeperId
  let duplicate ← db.get? .certificateAuthorities duplicateId
  let newRef ← keeper.name
  let oldRef ← duplicate.name
  guard (keeperId ≠ duplicateId)
  some
    { table := .certificateAuthorities
      number := duplicateId
      moved := [(.certificateCa oldRef, .certificateCa newRef),
                (.caParent oldRef, .caParent newRef)] }

/-- The requests. A bulk request is a request for each of its ids. -/
inductive Request
  | deleteCa (caId : ℕ)
  | bulkDeleteCa (caId : ℕ)
  | serviceDeleteCa (caId : ℕ)
  | deleteCertificate (certId : ℕ)
  | bulkDeleteCertificate (certId : ℕ)
  | serviceDeleteCertificate (certId : ℕ)
  | deleteUserCertificate (certId : ℕ)
  | deleteTemplate (templateId : ℕ)
  | bulkDeleteTemplate (templateId : ℕ)
  | serviceDeleteTemplate (templateId : ℕ)
  | deleteAcmeAccount (accountId : ℕ)
  | createInternalCa (newRefid : String) (caref : Option String)
  | importCa (newRefid : String) (parentId : Option ℕ)
  | createCertificate (newRefid caref : String) (templateId : Option ℕ)
  | apiCreate (newRefid : String) (caId : ℕ)
  | importCertificate (newRefid : String) (caId : Option ℕ)
  | generateCsr (newRefid : String)
  | signCsr (certId : ℕ) (caref : String)
  | rechain (table : TableName) (id parentId : ℕ)
  | autoApprove (transactionId newRefid caref : String)
  | approveRequest (transactionId newRefid caref : String)
  | createTemplate (name : String) (isSystem : Bool)
  | generateCrl (caId : ℕ)
  | cacheResponse (caId : ℕ)
  | createDomain (domain : String) (issuingCaId : Option ℕ)
  | updateDomain (domainId : ℕ) (issuingCaId : Option ℕ)
  | createLocalDomain (domain : String) (issuingCaId : ℕ)
  | updateLocalDomain (domainId issuingCaId : ℕ)
  | createPolicy (name : String) (caId templateId : Option ℕ)
  | updatePolicy (policyId : ℕ) (caId templateId : Option (Option ℕ))
  | updateAcmeSettings (issuingCaId : Option Address)
  | updateScepConfig (caId : Option Address)
  | regenerateChallengePassword (caId : ℕ)
  | updateEstConfig (caRefid : Option String)
  | updateEstConfigById (caId : ℕ)
  | updateMtlsSettings (enabled : Bool) (trustedCaId : Option String)
  | newAccount (accountId : String)
  | createOrder (accountId orderId : String) (authorizations : List (String × List String))
  | finalizeOrder (orderId : String) (certId : ℕ)
  | requestClientOrder
  | recordClientCertificate (orderId certId : ℕ)
  | discovered (existing certId : Option ℕ)
  | submitCsr (csrId : Option ℕ)

def accepted (db : Rows) : Request → Option Work
  | .deleteCa id => (deleteCa db id).toOption
  | .bulkDeleteCa id => (bulkDeleteCa db id).toOption
  | .serviceDeleteCa id => (serviceDeleteCa db id).toOption.join
  | .deleteCertificate id => (deleteCertificate db id).toOption
  | .bulkDeleteCertificate id => (bulkDeleteCertificate db id).toOption
  | .serviceDeleteCertificate id => serviceDeleteCertificate db id
  | .deleteUserCertificate id => deleteUserCertificate db id
  | .deleteTemplate id => (deleteTemplate db id).toOption
  | .bulkDeleteTemplate id => (bulkDeleteTemplate db id).toOption
  | .serviceDeleteTemplate id => (serviceDeleteTemplate db id).toOption
  | .deleteAcmeAccount id => (deleteAcmeAccount db id).toOption
  | .createInternalCa refid caref => createInternalCa db refid caref
  | .importCa refid parentId => importCa db refid parentId
  | .createCertificate refid caref templateId => createCertificate db refid caref templateId
  | .apiCreate refid caId => apiCreate db refid caId
  | .importCertificate refid caId => importCertificate db refid caId
  | .generateCsr refid => generateCsr refid
  | .signCsr certId caref => signCsr db certId caref
  | .rechain table id parentId => rechain db table id parentId
  | .autoApprove transactionId refid caref => autoApprove db transactionId refid caref
  | .approveRequest transactionId refid caref => approveRequest db transactionId refid caref
  | .createTemplate name isSystem => createTemplate name isSystem
  | .generateCrl caId => generateCrl db caId
  | .cacheResponse caId => cacheResponse db caId
  | .createDomain domain caId => createDomain db domain caId
  | .updateDomain id caId => updateDomain db id caId
  | .createLocalDomain domain caId => createLocalDomain db domain caId
  | .updateLocalDomain id caId => updateLocalDomain db id caId
  | .createPolicy name caId templateId => createPolicy name caId templateId
  | .updatePolicy id caId templateId => updatePolicy db id caId templateId
  | .updateAcmeSettings caId => updateAcmeSettings db caId
  | .updateScepConfig caId => updateScepConfig db caId
  | .regenerateChallengePassword caId => regenerateChallengePassword db caId
  | .updateEstConfig caRefid => updateEstConfig db caRefid
  | .updateEstConfigById caId => updateEstConfigById db caId
  | .updateMtlsSettings enabled caId => updateMtlsSettings db enabled caId
  | .newAccount accountId => newAccount accountId
  | .createOrder accountId orderId authorizations => createOrder db accountId orderId authorizations
  | .finalizeOrder orderId certId => finalizeOrder db orderId certId
  | .requestClientOrder => requestClientOrder
  | .recordClientCertificate orderId certId => recordClientCertificate db orderId certId
  | .discovered existing certId => discovered db existing certId
  | .submitCsr csrId => submitCsr csrId

end Deletions

end CaManager
