import CaManager.SmartImport.PemBundles

/-!
# Converting certificates and keys

The converter reads its input with the parser of the smart import, takes the text of every object
found, and loads it a second time, now without the password. What cannot be loaded so is left out.
What is left is written in another format: one text of all objects, the data of the first one, the
first certificate with the first key and all other certificates, or all certificates alone.
-/

namespace CaManager

open Library

/-- A certificate, a private key that is known by its public half, or a request. -/
inductive CryptoObject
  | certificate (cert : X509)
  | privateKey (key : PublicKey)
  | csr (request : Csr)
  deriving Repr, DecidableEq

namespace CryptoObject

def certificate? : CryptoObject → Option X509
  | certificate cert => some cert
  | _ => none

def privateKey? : CryptoObject → Option PublicKey
  | privateKey key => some key
  | _ => none

def csr? : CryptoObject → Option Csr
  | csr request => some request
  | _ => none

end CryptoObject

/-- What the libraries write besides the texts, and what `openssl` does. -/
class ConversionLibrary where
  csrPem : Csr → String
  certificateDer : X509 → Bytes
  privateKeyDer : PublicKey → Bytes
  csrDer : Csr → Bytes
  /-- A name, a key, its certificate, others, and the password. -/
  serializeKeyAndCertificates :
    String → PublicKey → X509 → Option (List X509) → String → Option Bytes
  crl2pkcs7 : String → Option String

namespace Converter

/-- The fields of a request, empty if they are left out. -/
structure Request where
  pem : String
  outputFormat : String := "pem"
  password : String := ""
  pkcs12Password : String := ""
  chain : String := ""
  privateKey : String := ""
  deriving Repr, DecidableEq

def Request.givenPassword (r : Request) : Option String :=
  if r.password = "" then none else some r.password

structure Contents where
  certificates : ℕ
  privateKeys : ℕ
  csrs : ℕ
  deriving Repr, DecidableEq

structure Conversion where
  format : String
  data : String
  filename : String
  detectedFormat : String
  contents : Option Contents := none
  deriving Repr, DecidableEq

inductive RawInput
  | text (content : String)
  | bytes (data : Bytes)
  deriving Repr, DecidableEq

namespace RawInput

def decoded : RawInput → Option String
  | text content => some content
  | bytes data => decodeText data

def detectedFormat : RawInput → String
  | text _ => "pem"
  | bytes _ => "binary"

end RawInput

def readInput (content : String) : Except String RawInput :=
  if startsWith content "BASE64:" then
    (Base64.b64decode (String.ofList (content.toList.drop 7))).map .bytes
  else .ok (.text content)

section Converting

variable [CryptographyLibrary] [X509Library] [KeyIdLibrary]

/-- `parse`, for a text or bytes. -/
def parse (raw : RawInput) (password : Option String) : List DetectedObject :=
  match raw with
  | .text content => SmartParser.parse content password
  | .bytes data =>
    match decodeText data with
    | some content => SmartParser.parse content password
    | none => SmartParser.parseBinary data password

def loadObject (o : DetectedObject) : Option CryptoObject :=
  match o.description with
  | .certificate _ _ => (CryptographyLibrary.loadPemX509Certificate o.rawPem).map .certificate
  | .privateKey _ _ => ((CryptographyLibrary.privateKey o.rawPem).load none).map .privateKey
  | .csr _ _ => (CryptographyLibrary.loadPemX509Csr o.rawPem).map .csr

/-- A file that begins as DER, in which nothing is found without a password. -/
def lacksPassword (r : Request) (raw : RawInput) : Bool :=
  match raw with
  | .text _ => false
  | .bytes data =>
    r.givenPassword = none && parse raw none = [] && 4 < data.length && data.head? = some 0x30

/-- The objects of the input, looked for without the password if there are none with it. -/
def inputObjects (r : Request) (raw : RawInput) : List DetectedObject :=
  let objects := parse raw r.givenPassword
  if objects = [] ∧ r.givenPassword ≠ none then parse raw none else objects

def isPrivateKey (o : DetectedObject) : Bool :=
  match o.description with
  | .privateKey _ _ => true
  | _ => false

def keyObjects (r : Request) : Except String (List DetectedObject) :=
  if stripSpaces r.privateKey = "" then .ok []
  else (readInput (stripSpaces r.privateKey)).map fun raw =>
    (parse raw r.givenPassword).filter isPrivateKey

def chainCerts (r : Request) : List X509 :=
  if stripSpaces r.chain = "" then []
  else ((SmartParser.parse (stripSpaces r.chain) none).filterMap loadObject).filterMap
    CryptoObject.certificate?

variable [ConversionLibrary]

def pem : CryptoObject → String
  | .certificate cert => CryptographyLibrary.certificatePem cert
  | .privateKey key => CryptographyLibrary.privateKeyPem key
  | .csr request => ConversionLibrary.csrPem request

def der : CryptoObject → Bytes
  | .certificate cert => ConversionLibrary.certificateDer cert
  | .privateKey key => ConversionLibrary.privateKeyDer key
  | .csr request => ConversionLibrary.csrDer request

def derFilename : CryptoObject → String
  | .certificate _ => "certificate.der"
  | .privateKey _ => "private_key.der"
  | .csr _ => "request.der"

def sorted (loaded : List CryptoObject) : List CryptoObject :=
  (loaded.filterMap CryptoObject.certificate?).map .certificate ++
    (loaded.filterMap CryptoObject.privateKey?).map .privateKey ++
    (loaded.filterMap CryptoObject.csr?).map .csr

def toPem (detectedFormat : String) (loaded : List CryptoObject) : Conversion where
  format := "pem"
  data := "\n".intercalate ((sorted loaded).map pem)
  filename := "converted.pem"
  detectedFormat
  contents := some {
    certificates := (loaded.filterMap CryptoObject.certificate?).length
    privateKeys := (loaded.filterMap CryptoObject.privateKey?).length
    csrs := (loaded.filterMap CryptoObject.csr?).length }

def toDer (detectedFormat : String) (loaded : List CryptoObject) : Except String Conversion :=
  match sorted loaded with
  | [] => .error "No data to convert to DER"
  | o :: _ => .ok
    { format := "der", data := Base64.b64encode (der o), filename := derFilename o, detectedFormat }

def toPkcs12 (r : Request) (detectedFormat : String) (loaded : List CryptoObject) :
    Except String Conversion :=
  match loaded.filterMap CryptoObject.certificate?, loaded.filterMap CryptoObject.privateKey? with
  | [], _ => .error "Certificate is required for PKCS12 output"
  | _, [] => .error "Private key is required for PKCS12 output"
  | cert :: certs, key :: _ =>
    if r.pkcs12Password = "" then .error "Password is required for PKCS12 output"
    else
      let caCerts := certs ++ chainCerts r
      match ConversionLibrary.serializeKeyAndCertificates "certificate" key cert
          (if caCerts = [] then none else some caCerts) r.pkcs12Password with
      | none => .error "Conversion failed"
      | some data => .ok
        { format := "pkcs12", data := Base64.b64encode data, filename := "certificate.p12",
          detectedFormat }

def toPkcs7 (r : Request) (detectedFormat : String) (loaded : List CryptoObject) :
    Except String Conversion :=
  match loaded.filterMap CryptoObject.certificate? with
  | [] => .error "At least one certificate is required for PKCS7"
  | cert :: certs =>
    match ConversionLibrary.crl2pkcs7 (String.join
        ((cert :: certs ++ chainCerts r).map CryptographyLibrary.certificatePem)) with
    | none => .error "Conversion failed"
    | some data => .ok { format := "pkcs7", data, filename := "certificates.p7b", detectedFormat }

def output (r : Request) (detectedFormat : String) (loaded : List CryptoObject) :
    Except String Conversion :=
  if r.outputFormat = "pem" then .ok (toPem detectedFormat loaded)
  else if r.outputFormat = "der" then toDer detectedFormat loaded
  else if r.outputFormat = "pkcs12" then toPkcs12 r detectedFormat loaded
  else if r.outputFormat = "pkcs7" then toPkcs7 r detectedFormat loaded
  else .error ("Unknown output format: " ++ r.outputFormat)

/-- `convert_certificate`. Every error is told with the status 400. -/
def convertCertificate (r : Request) : Except String Conversion :=
  if stripSpaces r.pem = "" then .error "Input data is required"
  else
    match readInput (stripSpaces r.pem) with
    | .error _ => .error "Conversion failed"
    | .ok raw =>
      if lacksPassword r raw then .error "Password is required for PKCS12/PFX files"
      else
        match keyObjects r with
        | .error _ => .error "Conversion failed"
        | .ok keys =>
          let loaded := (inputObjects r raw ++ keys).filterMap loadObject
          if loaded = [] then .error
            "Could not parse input data. Supported formats: PEM, DER, PKCS12, PKCS7"
          else output r raw.detectedFormat loaded

end Converting

end Converter

end CaManager
