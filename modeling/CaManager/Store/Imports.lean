import CaManager.Store.Authorities

/-!
# Imports

The routes that import a certificate from a file, with the one for authorities, and the
importer of a whole bundle. A file is read by the X.509 library; a bundle has been parsed and
its keys matched. Both store a key that came along in base64, as it is.
-/

namespace CaManager

open Library

/-- What the X.509 library reads of an uploaded file. -/
structure ParsedFile where
  x509 : X509
  privateKey : Option KeyPem
  deriving Repr, DecidableEq

/-- An upload: what parsing it gives, the name of the file if there was one, and the options of
the form. -/
structure Upload where
  parsed : Except PyError ParsedFile
  filename : Option String := none
  name : String := ""
  caId : Option ℕ := none
  importKey : Bool := true
  updateExisting : Bool := true

def Upload.key (u : Upload) (parsed : ParsedFile) : Option KeyPem :=
  parsed.privateKey.filter fun _ => u.importKey

/-- `is_ca_certificate` -/
def isCaCertificate (x : X509) : Except PyError Bool := do
  let extensions ← readExtensions x.extensions
  match extensionForOid extensions "2.5.29.19" with
  | none => return false
  | some e => return CAService.saysCa e.value

namespace Routes

section Uploads

variable [X509Library] [KeyIdLibrary]

def commonNameOf (x : X509) : String := (Name.commonNames x.subject).head?.getD ""

/-- `name or cert_info['cn'] or fallback` -/
def uploadName (u : Upload) (x : X509) (fallback : String) : String :=
  if u.name ≠ "" then u.name else if commonNameOf x ≠ "" then commonNameOf x else fallback

/-- The name of a new row. The fallback is asked for only when it is needed. -/
def newName (u : Upload) (x : X509) (fallback : Except PyError String) : Except PyError String :=
  if u.name ≠ "" ∨ commonNameOf x ≠ "" then .ok (uploadName u x "") else fallback

def findExistingCa (st : Store) (x : X509) : Option CA :=
  st.cas.first fun c => c.subject = some (X509Library.rfc4514String x.subject)

def findExistingCertificate (st : Store) (x : X509) : Option Certificate :=
  st.certificates.first fun c => c.subject = some (X509Library.rfc4514String x.subject) &&
    c.issuer = some (X509Library.rfc4514String x.issuer)

def updatedCa (u : Upload) (parsed : ParsedFile) (row : CA) : CA :=
  let x := parsed.x509
  { row with
    descr := uploadName u x row.descr
    crt := .base64 ⟨x, []⟩
    prv := ((u.key parsed).map Encoded.base64).or row.prv
    issuer := some (X509Library.rfc4514String x.issuer)
    validFrom := some x.notBefore, validTo := some x.notAfter }

def uploadedCa (u : Upload) (parsed : ParsedFile) (descr refid : String) : CA :=
  let x := parsed.x509
  { newCa refid descr (.base64 ⟨x, []⟩) ((u.key parsed).map Encoded.base64) with
    subject := some (X509Library.rfc4514String x.subject)
    issuer := some (X509Library.rfc4514String x.issuer), ski := subjectKeyId x
    validFrom := some x.notBefore, validTo := some x.notAfter, importedFrom := some "manual" }

def importAnswer (st : Store) (invalid : String) (result : Except PyError (Response × Store)) :
    Response × Store :=
  match result with
  | .ok answer => answer
  | .error (.valueError _) => (⟨400, invalid⟩, st)
  | .error _ => (⟨500, "Import failed"⟩, st)

def quoted (what name rest : String) : String := what ++ " \"" ++ name ++ "\" " ++ rest

def alreadyExists (what : String) (x : X509) (id : ℕ) : Response :=
  ⟨409, quoted (what ++ " with subject") (commonNameOf x)
    ("already exists (ID: " ++ decimalText id ++ ")")⟩

/-- Store an authority: over the one with its subject, or as a new one. The two routes differ
in the file name that they fall back to, in what they write over an existing row, and in how
they call it. -/
def storeCa (st : Store) (u : Upload) (parsed : ParsedFile) (fallback : Except PyError String)
    (update : CA → CA) (what imported refid : String) : Except PyError (Response × Store) :=
  match findExistingCa st parsed.x509 with
  | some row =>
    if u.updateExisting = false then .ok (alreadyExists "CA" parsed.x509 row.id, st)
    else
      .ok (⟨200, quoted what (uploadName u parsed.x509 row.descr) "updated (already existed)"⟩,
        st.setCa row.id update)
  | none => do
    let descr ← newName u parsed.x509 fallback
    let st ← st.addCa (uploadedCa u parsed descr refid)
    return (⟨201, quoted what descr imported⟩, st)

/-- `import_ca` of the authority routes. -/
def importCa (st : Store) (u : Upload) (refid : String) : Response × Store :=
  importAnswer st "Invalid CA data" do
    let parsed ← u.parsed
    storeCa st u parsed (.ok (u.filename.getD "pasted.pem")) (updatedCa u parsed)
      "CA" "imported successfully" refid

def uploadedFilename (u : Upload) : Except PyError String :=
  orThrow u.filename (.attributeError "file" "filename")

/-- The authority that an imported certificate is linked to: the one asked for, or else the one
with its authority key identifier, or else the one with its issuer as subject. -/
def linkedCa (st : Store) (u : Upload) (x : X509) : Option CA :=
  match u.caId.filter (· ≠ 0) with
  | some id => st.cas.get? id
  | none =>
    (((authorityKeyId x).filter (· ≠ "")).bind fun aki => st.cas.first fun c => c.ski = some aki).or
      (st.cas.first fun c => c.subject = some (X509Library.rfc4514String x.issuer))

def updatedCertificate (st : Store) (u : Upload) (parsed : ParsedFile) (row : Certificate) :
    Certificate :=
  let x := parsed.x509
  let ca := (u.caId.filter (· ≠ 0)).bind st.cas.get?
  { row with
    descr := uploadName u x row.descr
    crt := some (.base64 ⟨x, []⟩)
    prv := ((u.key parsed).map Encoded.base64).or row.prv
    validFrom := some x.notBefore, validTo := some x.notAfter
    aki := authorityKeyId x, ski := subjectKeyId x
    caref := (ca.map CA.refid).or row.caref }

def uploadedCertificate (st : Store) (u : Upload) (parsed : ParsedFile) (descr refid : String) :
    Certificate :=
  let x := parsed.x509
  { refid, descr
    crt := some (.base64 ⟨x, []⟩), prv := (u.key parsed).map Encoded.base64
    caref := (linkedCa st u x).map CA.refid
    subject := some (X509Library.rfc4514String x.subject)
    issuer := some (X509Library.rfc4514String x.issuer)
    aki := authorityKeyId x, ski := subjectKeyId x
    validFrom := some x.notBefore, validTo := some x.notAfter, createdBy := some "import" }

/-- Store a certificate: over the one with its subject and issuer, or as a new one. -/
def storeCertificate (st : Store) (u : Upload) (parsed : ParsedFile) (refid : String) :
    Except PyError (Response × Store) :=
  match findExistingCertificate st parsed.x509 with
  | some row =>
    if u.updateExisting = false then .ok (alreadyExists "Certificate" parsed.x509 row.id, st)
    else
      .ok (⟨200, quoted "Certificate" (uploadName u parsed.x509 row.descr)
          "updated (already existed)"⟩,
        st.setCertificate row.id (updatedCertificate st u parsed))
  | none => do
    let descr ← newName u parsed.x509 (uploadedFilename u)
    let st ← st.addCertificate (uploadedCertificate st u parsed descr refid)
    return (⟨201, quoted "Certificate" descr "imported successfully"⟩, st)

/-- `import_certificate`: a certificate of an authority goes to the authorities. -/
def importCertificate (st : Store) (u : Upload) (refid : String) : Response × Store :=
  importAnswer st "Invalid input" do
    let parsed ← u.parsed
    if ← isCaCertificate parsed.x509 then
      storeCa st u parsed (uploadedFilename u)
        (fun row => { updatedCa u parsed row with ski := subjectKeyId parsed.x509 })
        "CA certificate" "imported successfully (detected as CA)" refid
    else storeCertificate st u parsed refid

end Uploads

end Routes

/-- A certificate or a request of a bundle, as the parser describes it. -/
structure ParsedObject (α : Type) where
  raw : α
  index : ℕ := 0
  subject : String := ""
  issuer : String := ""
  serialNumber : String := ""
  notBefore : Option Time := none
  notAfter : Option Time := none
  isCa : Bool := false
  isSelfSigned : Bool := false
  sanDns : List String := []
  sanIp : List String := []
  ski : Option String := none
  aki : Option String := none
  chainDepth : ℤ := 0
  deriving Repr, DecidableEq

/-- A parsed bundle: its certificates and requests, and the keys that the matcher paired with
them. -/
structure Bundle where
  certificates : List (ParsedObject CertPem)
  csrs : List (ParsedObject Csr)
  matchedPairs : List (KeyPem × ParsedObject CertPem)
  csrKeyPairs : List (ParsedObject Csr × KeyPem)
  deriving Repr, DecidableEq

structure ImportOptions where
  importCas : Bool := true
  importCerts : Bool := true
  importCsrs : Bool := true
  skipDuplicates : Bool := true
  username : String := "system"
  deriving Repr, DecidableEq

namespace SmartImporter

def getCn (subject : String) : String :=
  (((subject.splitOn ",").map fun part => part.trimAscii.toString).findSome? fun part =>
    if part.toUpper.startsWith "CN=" then some (part.drop 3).toString else none).getD "Unknown"

/-- The name an object is stored under: its common name, else its first DNS name. -/
def displayName {α : Type} (o : ParsedObject α) : Option String :=
  let cn := getCn o.subject
  if cn = "" ∨ cn = "Unknown" then o.sanDns.head? else some cn

def nonEmpty (text : Option String) : Option String := text.filter (· ≠ "")

/-- What is known while authorities are imported: the store, and the references by subject and
by key identifier, the newest first. -/
structure Progress where
  store : Store
  subjectToRefid : List (String × String) := []
  skiToRefid : List (String × String) := []

def duplicateCa (st : Store) (o : ParsedObject CertPem) : Option CA :=
  ((nonEmpty o.ski).bind fun ski => st.cas.first fun c => c.ski = some ski).or
    ((nonEmpty (some o.serialNumber)).bind fun serial =>
      st.cas.first fun c => c.serialNumber = some serial)

def parentRefid (p : Progress) (o : ParsedObject CertPem) : Option String :=
  if o.isSelfSigned then none
  else
    ((nonEmpty o.aki).bind fun aki => (nonEmpty (p.skiToRefid.lookup aki)).or
      ((p.store.cas.first fun c => c.ski = some aki).map CA.refid)).or
    ((nonEmpty (p.subjectToRefid.lookup o.issuer)).or
      ((p.store.cas.first fun c => c.subject = some o.issuer).map CA.refid))

def matchedKey (b : Bundle) (o : ParsedObject CertPem) : Option KeyPem :=
  (b.matchedPairs.find? fun pair => pair.2 = o).map Prod.fst

def matchedCsrKey (b : Bundle) (o : ParsedObject Csr) : Option KeyPem :=
  (b.csrKeyPairs.find? fun pair => pair.1 = o).map Prod.snd

/-- Remember the reference of an authority, by its subject and its key identifier. -/
def Progress.remember (p : Progress) (subject : String) (ski : Option String) (refid : String) :
    Progress :=
  { p with
    subjectToRefid := (subject, refid) :: p.subjectToRefid
    skiToRefid := ((nonEmpty ski).map fun ski => (ski, refid)).toList ++ p.skiToRefid }

def caRow (b : Bundle) (p : Progress) (o : ParsedObject CertPem) (username refid : String) : CA :=
  { newCa refid (getCn o.subject) (.base64 o.raw) ((matchedKey b o).map Encoded.base64) with
    caref := parentRefid p o, subject := some o.subject, issuer := some o.issuer
    serialNumber := some o.serialNumber, ski := o.ski
    validFrom := o.notBefore, validTo := o.notAfter
    importedFrom := some "smart_import", createdBy := some username }

def importCa (b : Bundle) (options : ImportOptions) (p : Progress)
    (entry : ParsedObject CertPem × String) : Except PyError Progress :=
  let (o, refid) := entry
  match (duplicateCa p.store o).filter fun _ => options.skipDuplicates with
  | some existing => .ok (p.remember o.subject existing.ski existing.refid)
  | none => do
    let store ← p.store.addCa (caRow b p o options.username refid)
    return ({ p with store }).remember o.subject o.ski refid

def certificateRow (b : Bundle) (st : Store) (o : ParsedObject CertPem) (username refid : String) :
    Certificate :=
  let ca := ((nonEmpty o.aki).bind fun aki => st.cas.first fun c => c.ski = some aki).or
    (st.cas.first fun c => c.subject = some o.issuer)
  { refid, descr := (nonEmpty (displayName o)).getD "Certificate", caref := ca.map CA.refid
    crt := some (.base64 o.raw), prv := (matchedKey b o).map Encoded.base64
    certType := some "server_cert", subject := some o.subject, subjectCn := displayName o
    issuer := some o.issuer, serialNumber := some o.serialNumber, aki := o.aki, ski := o.ski
    validFrom := o.notBefore, validTo := o.notAfter
    sanDns := CertificateService.storedNames o.sanDns
    sanIp := CertificateService.storedNames o.sanIp
    source := some "import", importedFrom := some "smart_import", createdBy := some username }

/-- Import one certificate; one whose serial number is stored already is skipped. -/
def importCertificate (b : Bundle) (options : ImportOptions) (st : Store)
    (entry : ParsedObject CertPem × String) : Except PyError Store :=
  let (o, refid) := entry
  if options.skipDuplicates && (st.certificates.first fun c =>
      c.serialNumber = some o.serialNumber).isSome then .ok st
  else st.addCertificate (certificateRow b st o options.username refid)

def csrRow (b : Bundle) (o : ParsedObject Csr) (username refid : String) : Certificate :=
  let cn := (displayName o).getD "CSR"
  { refid, descr := cn, csr := some (.base64 o.raw)
    prv := (matchedCsrKey b o).map Encoded.base64, certType := some "server_cert"
    subject := some o.subject, subjectCn := some cn
    sanDns := CertificateService.storedNames o.sanDns
    sanIp := CertificateService.storedNames o.sanIp
    source := some "import", importedFrom := some "smart_import", createdBy := some username }

def importCsr (b : Bundle) (options : ImportOptions) (st : Store)
    (entry : ParsedObject Csr × String) : Except PyError Store :=
  st.addCertificate (csrRow b entry.1 options.username entry.2)

def withRefids {α : Type} (objects : List α) (refids : ℕ → String) : List (α × String) :=
  objects.zipIdx.map fun (o, i) => (o, refids i)

/-- The authorities of the bundle, from the roots downwards, each with a drawn reference. -/
def caEntries (b : Bundle) (refids : ℕ → String) : List (ParsedObject CertPem × String) :=
  withRefids ((b.certificates.filter ParsedObject.isCa).mergeSort fun o o' =>
    o'.chainDepth ≤ o.chainDepth) refids

def certificateEntries (b : Bundle) (refids : ℕ → String) : List (ParsedObject CertPem × String) :=
  withRefids (b.certificates.filter fun o => !o.isCa) refids

/-- `_import_cas` -/
def importCas (st : Store) (b : Bundle) (options : ImportOptions) (refids : ℕ → String) :
    Except PyError Store :=
  if options.importCas then
    Progress.store <$> (caEntries b refids).foldlM (importCa b options) { store := st }
  else .ok st

/-- `_import_certificates` -/
def importCertificates (st : Store) (b : Bundle) (options : ImportOptions)
    (refids : ℕ → String) : Except PyError Store :=
  if options.importCerts then
    (certificateEntries b refids).foldlM (importCertificate b options) st
  else .ok st

/-- `_import_csrs` -/
def importCsrs (st : Store) (b : Bundle) (options : ImportOptions) (refids : ℕ → String) :
    Except PyError Store :=
  if options.importCsrs then (withRefids b.csrs refids).foldlM (importCsr b options) st
  else .ok st

/-- `execute`: authorities, certificates, requests, and one commit. -/
def execute (st : Store) (b : Bundle) (options : ImportOptions)
    (caRefids certRefids csrRefids : ℕ → String) : Except PyError Store := do
  let st ← importCas st b options caRefids
  let st ← importCertificates st b options certRefids
  importCsrs st b options csrRefids

end SmartImporter

end CaManager

/-!
# Parsing a bundle

What the parser says of each object of a bundle, and which key the matcher pairs with it. The
place of an object in the bundle and its depth in a chain are given.
-/

namespace CaManager

open Library

/-- The certificates of a bundle with their places and depths, the requests with their places, and
the keys that could be read. -/
structure Contents where
  certificates : List (CertPem × ℕ × ℤ)
  csrs : List (Csr × ℕ)
  keys : List KeyPem
  deriving Repr, DecidableEq

namespace SmartImporter

section Matching

variable {α : Type}

/-- Give each key the first object that it fits and that no key before it got. The keys that fit
none are left over. -/
def pairUp (fits : KeyPem → α → Bool) : List KeyPem → List α → List (KeyPem × α) × List KeyPem
  | [], _ => ([], [])
  | key :: keys, objects =>
    match objects.find? (fits key) with
    | some o =>
      let (pairs, rest) := pairUp fits keys (objects.eraseP (fits key))
      ((key, o) :: pairs, rest)
    | none =>
      let (pairs, rest) := pairUp fits keys objects
      (pairs, key :: rest)

theorem fits_of_mem_pairUp {fits : KeyPem → α → Bool} {keys : List KeyPem} {objects : List α}
    {pair : KeyPem × α} (h : pair ∈ (pairUp fits keys objects).1) : fits pair.1 pair.2 = true := by
  induction keys generalizing objects with
  | nil => cases h
  | cons key keys ih =>
    unfold pairUp at h
    split at h
    next o ho =>
      rcases List.mem_cons.mp h with rfl | h
      · exact List.find?_some ho
      · exact ih h
    next => exact ih h

end Matching

section Parsing

variable [X509Library]

/-- `_parse_pem_csrs`, for one request. -/
def parseCsr (csr : Csr) : Except PyError (ParsedObject Csr) := do
  let names := alternativeNames (← csr.extensions)
  return { raw := csr, subject := X509Library.rfc4514String csr.subject
           sanDns := names.filterMap GeneralName.dnsName?
           sanIp := names.filterMap GeneralName.ipAddress? }

variable [KeyIdLibrary]

/-- `_parse_x509_cert` -/
def parseX509Cert (pem : CertPem) : Except PyError (ParsedObject CertPem) := do
  let x := pem.leaf
  let isCa ← isCaCertificate x
  let subject := X509Library.rfc4514String x.subject
  let issuer := X509Library.rfc4514String x.issuer
  let names := alternativeNames x.extensions
  return { raw := pem, subject, issuer, serialNumber := decimalText x.serial
           notBefore := some x.notBefore, notAfter := some x.notAfter
           isCa, isSelfSigned := subject = issuer
           sanDns := names.filterMap GeneralName.dnsName?
           sanIp := names.filterMap GeneralName.ipAddress?
           ski := subjectKeyId x, aki := authorityKeyId x }

/-- The parsed bundle. What cannot be parsed is passed over, and the keys that fit no certificate
are tried with the requests. -/
def Contents.bundle (c : Contents) : Bundle :=
  let certificates := c.certificates.filterMap fun (pem, index, chainDepth) =>
    (parseX509Cert pem).toOption.map fun o => { o with index, chainDepth }
  let csrs := c.csrs.filterMap fun (csr, index) =>
    (parseCsr csr).toOption.map fun o => { o with index }
  let (pairs, rest) := pairUp (fun key (o : ParsedObject CertPem) =>
    key.publicKey = o.raw.leaf.publicKey) c.keys certificates
  let (csrPairs, _) := pairUp (fun key (o : ParsedObject Csr) =>
    key.publicKey = o.raw.publicKey) rest csrs
  { certificates, csrs, matchedPairs := pairs
    csrKeyPairs := csrPairs.map fun (key, o) => (o, key) }

/-- The parser's description of a certificate agrees with it. -/
structure Described (o : ParsedObject CertPem) : Prop where
  subject : o.subject = X509Library.rfc4514String o.raw.leaf.subject
  issuer : o.issuer = X509Library.rfc4514String o.raw.leaf.issuer
  serialNumber : o.serialNumber = decimalText o.raw.leaf.serial
  notBefore : o.notBefore = some o.raw.leaf.notBefore
  notAfter : o.notAfter = some o.raw.leaf.notAfter

theorem described_of_mem {c : Contents} {o : ParsedObject CertPem}
    (h : o ∈ (Contents.bundle c).certificates) : Described o := by
  obtain ⟨⟨pem, index, chainDepth⟩, _, hparsed⟩ := List.mem_filterMap.mp h
  obtain ⟨o', ho', rfl⟩ := Option.map_eq_some_iff.mp hparsed
  rw [toOption_eq_some] at ho'
  simp only [parseX509Cert, bind_eq_ok, pure_eq_ok] at ho'
  obtain ⟨isCa, _, rfl⟩ := ho'
  exact ⟨rfl, rfl, rfl, rfl, rfl⟩

theorem matchedKey_fits {c : Contents} {o : ParsedObject CertPem} {key : KeyPem}
    (h : matchedKey (Contents.bundle c) o = some key) : key.publicKey = o.raw.leaf.publicKey := by
  obtain ⟨⟨key', o'⟩, hfound, rfl⟩ := Option.map_eq_some_iff.mp h
  have hsame : o' = o := by simpa using List.find?_some hfound
  have hfits := fits_of_mem_pairUp (List.mem_of_find?_eq_some hfound)
  subst hsame
  exact of_decide_eq_true hfits

theorem matchedCsrKey_fits {c : Contents} {o : ParsedObject Csr} {key : KeyPem}
    (h : matchedCsrKey (Contents.bundle c) o = some key) : key.publicKey = o.raw.publicKey := by
  obtain ⟨⟨o', key'⟩, hfound, rfl⟩ := Option.map_eq_some_iff.mp h
  have hsame : o' = o := by simpa using List.find?_some hfound
  obtain ⟨⟨key'', o''⟩, hmem, heq⟩ := List.mem_map.mp (List.mem_of_find?_eq_some hfound)
  obtain ⟨rfl, rfl⟩ := Prod.mk.inj heq
  have hfits := fits_of_mem_pairUp hmem
  subst hsame
  exact of_decide_eq_true hfits

end Parsing

end SmartImporter

end CaManager
