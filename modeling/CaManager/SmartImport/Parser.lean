import CaManager.Library.Base64
import CaManager.Library.PemTexts
import CaManager.SmartImport.KeyMatcher

/-!
# The parser of the smart import

The parser scans a text with one pattern after another: for three kinds of binary data in PEM
disguise, for certificates, for four kinds of private keys, for two kinds of requests, and for
PKCS #7. What the patterns find is loaded and described, and sorted by its place. A text without
any block that looks like base64 is decoded and read as binary data instead.
-/

namespace CaManager

open Library Pattern

/-- The curves that have a name of their own as an algorithm. -/
inductive Edwards
  | ed25519
  | ed448
  deriving Repr, DecidableEq

/-- What the cryptography library reads and writes. A private key is known by its public half. -/
class CryptographyLibrary where
  loadPemX509Certificate : String → Option X509
  loadPemX509Csr : String → Option Csr
  privateKey : String → KeyText
  loadPemPkcs7Certificates : String → Option (List X509)
  loadKeyAndCertificates :
    Bytes → Option String → Option (Option PublicKey × Option X509 × List X509)
  loadDerX509Certificate : Bytes → Option X509
  loadDerPrivateKey : Bytes → Option String → Option PublicKey
  loadDerPkcs7Certificates : Bytes → Option (List X509)
  certificatePem : X509 → String
  privateKeyPem : PublicKey → String
  curveSize : String → ℕ
  edwards : PublicKey → Option Edwards

structure KeyInfo where
  keyAlgorithm : String
  keySize : ℕ
  deriving Repr, DecidableEq

/-- What the parser says of an object, by its type. -/
inductive Description
  | certificate (o : ParsedObject CertPem) (info : KeyInfo)
  | privateKey (isEncrypted : Bool) (info : KeyInfo)
  | csr (o : ParsedObject Csr) (info : KeyInfo)
  deriving Repr, DecidableEq

/-- An object of a text: its own text, its place, and what is said of it. -/
structure DetectedObject where
  rawPem : String
  index : ℕ := 0
  description : Description
  deriving Repr, DecidableEq

namespace SmartParser

/-! ### The patterns -/

def label : List (List Char) → Pattern
  | [] => .empty
  | [word] => exactly word
  | word :: words => .seq (exactly word) (.seq (atLeastOne isSpace) (label words))

def certificateWord : List Char := ['C', 'E', 'R', 'T', 'I', 'F', 'I', 'C', 'A', 'T', 'E']

def requestWord : List Char := ['R', 'E', 'Q', 'U', 'E', 'S', 'T']

def newWord : List Char := ['N', 'E', 'W']

def privateWord : List Char := ['P', 'R', 'I', 'V', 'A', 'T', 'E']

def keyWord : List Char := ['K', 'E', 'Y']

def rsaWord : List Char := ['R', 'S', 'A']

def ecWord : List Char := ['E', 'C']

def encryptedWord : List Char := ['E', 'N', 'C', 'R', 'Y', 'P', 'T', 'E', 'D']

def derWord : List Char := ['D', 'E', 'R']

def pkcs7Word : List Char := ['P', 'K', 'C', 'S', '7']

def pkcs12Word : List Char := ['P', 'K', 'C', 'S', '1', '2']

/-- `PEM_CERT_PATTERN` -/
def pemCertPattern : Pattern := Pem.armour (label [certificateWord])

def rsaLabel : Pattern :=
  .seq (.optional (.seq (exactly rsaWord) (atLeastOne isSpace))) (label [privateWord, keyWord])

/-- `PEM_KEY_PATTERNS` -/
def pemKeyPatterns : List Pattern :=
  [Pem.armour rsaLabel, Pem.armour (label [ecWord, privateWord, keyWord]),
    Pem.armour (label [encryptedWord, privateWord, keyWord]),
    Pem.armour (label [privateWord, keyWord])]

/-- `PEM_CSR_PATTERNS` -/
def pemCsrPatterns : List Pattern :=
  [Pem.armour (label [certificateWord, requestWord]),
    Pem.armour (label [newWord, certificateWord, requestWord])]

/-- `PEM_PKCS7_PATTERN` -/
def pemPkcs7Pattern : Pattern := Pem.armour (label [pkcs7Word])

def pkcs12Pattern : Pattern := Pem.armour (label [pkcs12Word])

def derCertPattern : Pattern := Pem.armour (label [derWord, certificateWord])

def derKeyPattern : Pattern := Pem.armour (label [derWord, keyWord])

/-- `finditer` -/
def finditer (r : Pattern) (content : String) : List Found := findAll r 0 0 content.toList

def pemBlocks (r : Pattern) (content : String) : List (ℕ × String) :=
  ((finditer r content).map Found.place).map fun (start, taken) => (start, String.ofList taken)

section Parsing

variable [CryptographyLibrary]

/-- `_get_key_info` -/
def getKeyInfo (key : PublicKey) : KeyInfo :=
  match key.kind with
  | .rsa bits => ⟨"RSA", bits⟩
  | .ec curve => ⟨"EC " ++ curve, CryptographyLibrary.curveSize curve⟩
  | .other =>
    match CryptographyLibrary.edwards key with
    | some .ed25519 => ⟨"Ed25519", 256⟩
    | some .ed448 => ⟨"Ed448", 448⟩
    | none => ⟨"Unknown", 0⟩

def givenPassword (password : Option String) : Option String := password.filter (· ≠ "")

/-- `_parse_private_key` -/
def parsePrivateKey (key : PublicKey) : DetectedObject where
  rawPem := CryptographyLibrary.privateKeyPem key
  description := .privateKey false (getKeyInfo key)

/-- What is said of a key in a text. One that cannot be loaded is taken for an encrypted one. -/
def describeKey (password : Option String) (pemBlock : String) : Description :=
  match (CryptographyLibrary.privateKey pemBlock).load (givenPassword password) with
  | some key => .privateKey (occursIn "ENCRYPTED" pemBlock) (getKeyInfo key)
  | none => .privateKey true ⟨"unknown (encrypted)", 0⟩

/-- `seen_positions`: a place is used once. -/
def unseen : List ℕ → List (ℕ × String) → List (ℕ × String)
  | _, [] => []
  | seen, (start, pemBlock) :: found =>
    if start ∈ seen then unseen seen found
    else (start, pemBlock) :: unseen (start :: seen) found

/-- `_parse_pem_keys` -/
def parsePemKeys (content : String) (password : Option String) : List DetectedObject :=
  (unseen [] (pemKeyPatterns.flatMap fun r => pemBlocks r content)).map fun (start, pemBlock) =>
    ⟨pemBlock, start, describeKey password pemBlock⟩

section Certificates

variable [X509Library] [KeyIdLibrary]

def describeCsr (csr : Csr) : Option Description :=
  (SmartImporter.parseCsr csr).toOption.map fun o => .csr o (getKeyInfo csr.publicKey)

/-- `_parse_x509_cert` -/
def parseX509Cert (cert : X509) : Option DetectedObject :=
  (SmartImporter.parseX509Cert ⟨cert, []⟩).toOption.map fun o =>
    { rawPem := CryptographyLibrary.certificatePem cert
      description := .certificate o (getKeyInfo cert.publicKey) }

/-- `_parse_pem_certificates` -/
def parsePemCertificates (content : String) : List DetectedObject :=
  (pemBlocks pemCertPattern content).filterMap fun (start, pemBlock) =>
    ((CryptographyLibrary.loadPemX509Certificate pemBlock).bind parseX509Cert).map fun o =>
      { o with rawPem := pemBlock, index := start }

/-- `_parse_pem_csrs` -/
def parsePemCsrs (content : String) : List DetectedObject :=
  pemCsrPatterns.flatMap fun r => (pemBlocks r content).filterMap fun (start, pemBlock) =>
    ((CryptographyLibrary.loadPemX509Csr pemBlock).bind describeCsr).map fun d =>
      ⟨pemBlock, start, d⟩

def untilFailure {α : Type} : List (Option α) → List α × Bool
  | [] => ([], true)
  | none :: _ => ([], false)
  | some a :: steps => (a :: (untilFailure steps).1, (untilFailure steps).2)

/-- `_parse_pem_pkcs7` -/
def parsePemPkcs7 (content : String) : List DetectedObject :=
  (pemBlocks pemPkcs7Pattern content).flatMap fun (start, pemBlock) =>
    match CryptographyLibrary.loadPemPkcs7Certificates pemBlock with
    | none => []
    | some certs =>
      (untilFailure (certs.map parseX509Cert)).1.map fun o => { o with index := start }

def indexed (objects : List DetectedObject) : List DetectedObject :=
  objects.zipIdx.map fun (o, i) => { o with index := i }

/-- The objects of PKCS #12 data until one cannot be described, and whether all could. -/
def pkcs12Objects (data : Bytes) (password : Option String) : List DetectedObject × Bool :=
  match CryptographyLibrary.loadKeyAndCertificates data (givenPassword password) with
  | none => ([], false)
  | some (privateKey, cert, additionalCerts) =>
    let steps := cert.toList.map parseX509Cert ++
      (privateKey.toList.map fun key => some (parsePrivateKey key)) ++
      additionalCerts.map parseX509Cert
    (indexed (untilFailure steps).1, (untilFailure steps).2)

/-- `_parse_pkcs12` -/
def parsePkcs12 (data : Bytes) (password : Option String) : List DetectedObject :=
  (pkcs12Objects data password).1

/-- `_parse_der_cert` -/
def parseDerCert (data : Bytes) : Option DetectedObject :=
  (CryptographyLibrary.loadDerX509Certificate data).bind parseX509Cert

/-- `_parse_der_key` -/
def parseDerKey (data : Bytes) (password : Option String) : Option DetectedObject :=
  (CryptographyLibrary.loadDerPrivateKey data (givenPassword password)).map parsePrivateKey

/-- `_parse_binary`. What PKCS #12 gave before it failed stays in front of what PKCS #7 gives. -/
def parseBinary (data : Bytes) (password : Option String) : List DetectedObject :=
  let (objects, complete) := pkcs12Objects data password
  if complete ∧ objects ≠ [] then objects
  else
    match (parseDerCert data).or (parseDerKey data password) with
    | some o => [o]
    | none =>
      match CryptographyLibrary.loadDerPkcs7Certificates data with
      | none => objects
      | some certs => objects ++ indexed (untilFailure (certs.map parseX509Cert)).1

def binaryData (m : Found) : Option Bytes :=
  (Base64.b64decode (String.ofList ((m.groups.headD []).filter fun c =>
    c ≠ '\n' ∧ c ≠ '\r' ∧ c ≠ ' '))).toOption

/-- `_parse_pseudo_pem_binary` -/
def parsePseudoPemBinary (content : String) (password : Option String) : List DetectedObject :=
  ((finditer pkcs12Pattern content).flatMap fun m =>
      ((binaryData m).map fun data => parsePkcs12 data password).getD []) ++
    ((finditer derCertPattern content).filterMap fun m => (binaryData m).bind parseDerCert) ++
    ((finditer derKeyPattern content).filterMap fun m =>
      (binaryData m).bind fun data => parseDerKey data password)

def base64Pattern : Pattern :=
  .seq (atLeastOne fun c => (Base64.value c).isSome)
    (.optional (.seq (exactly ['=']) (.optional (exactly ['=']))))

/-- `_looks_like_base64` -/
def looksLikeBase64 (content : String) : Bool :=
  let clean := (stripSpaces content).toList.filter fun c => c ≠ '\n' ∧ c ≠ '\r'
  20 ≤ clean.length && takes base64Pattern clean && clean.length % 4 = 0

def binaryObjects (content : String) (password : Option String) : Option (List DetectedObject) :=
  if looksLikeBase64 content ∧ ¬occursIn "-----BEGIN" content then
    (Base64.b64decode content).toOption.map fun data => parseBinary data password
  else none

/-- `parse`, for a text. -/
def parse (content : String) (password : Option String) : List DetectedObject :=
  let objects := parsePseudoPemBinary content password ++ parsePemCertificates content ++
    parsePemKeys content password ++ parsePemCsrs content ++ parsePemPkcs7 content
  (binaryObjects content password).getD
    (indexed (objects.mergeSort fun o o' => o.index ≤ o'.index))

end Certificates

end Parsing

end SmartParser

end CaManager
