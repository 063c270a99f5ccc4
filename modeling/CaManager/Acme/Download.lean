import CaManager.Acme.Api
import CaManager.Store.Rows

/-!
# Downloading a certificate

The certificate of an order is sent with those of its issuers. The handler climbs from authority to
authority by their references and remembers the references it has followed.
-/

namespace CaManager

open Library AcmeService Store

/-- What a download answers: a problem, the texts of a chain, or an exception that no handler
catches. -/
inductive Download
  | problem (type detail : String) (status : ℕ)
  | chain (pems : List CertPem)
  | raised (e : PyError)
  deriving Repr, DecidableEq

namespace AcmeApi

def pemOf (crt : Encoded CertPem) : Except PyError CertPem :=
  orThrow crt.decoded (.unloadable "certificate")

/-- The loop over the issuers, for so many of them at most, with the references seen so far. -/
def addIssuers (st : Store) : ℕ → List String → Option String →
    Option (Except PyError (List CertPem))
  | fuel, seen, caref =>
    match present caref with
    | none => some (.ok [])
    | some refid =>
      if refid ∈ seen then some (.ok [])
      else
        match st.caByRef refid with
        | none => some (.ok [])
        | some ca =>
          match pemOf ca.crt with
          | .error e => some (.error e)
          | .ok pem =>
            match fuel with
            | 0 => none
            | fuel + 1 =>
              (addIssuers st fuel (refid :: seen) ca.caref).map fun issuers =>
                (pem :: ·) <$> issuers

def chainOf (st : Store) (fuel : ℕ) (cert : Certificate) (crt : Encoded CertPem) :
    Option (Except PyError (List CertPem)) :=
  match pemOf crt with
  | .error e => some (.error e)
  | .ok pem =>
    (addIssuers st fuel [] cert.caref).map fun issuers => (pem :: ·) <$> issuers

def sendChain (st : AcmeStore) (nonce : String) (now : Time) :
    Except PyError (List CertPem) → Download × AcmeStore
  | .error e => (.raised e, st)
  | .ok pems =>
    match generateNonce st nonce now with
    | none => (.raised (.integrityError "acme_nonces.token"), st)
    | some st' => (.chain pems, st')

/-- The part of the handler after its message was verified, if there was one. -/
def downloadVerified (st : AcmeStore) (fuel : ℕ) (orderId nonce : String) (now : Time) :
    Option (Download × AcmeStore) :=
  match getOrder st orderId with
  | none => some (.problem "notFound" "Order not found" 404, st)
  | some order =>
    if order.status ≠ .valid then
      some (.problem "orderNotReady"
        s!"Order status is {order.status.text}, certificate not available" 403, st)
    else
      match order.certificateId.filter (· ≠ 0) with
      | none => some (.problem "serverInternal" "Certificate not generated" 500, st)
      | some certId =>
        match st.store.certificates.get? certId with
        | none => some (.problem "serverInternal" "Certificate not found in database" 500, st)
        | some cert =>
          match cert.crt with
          | none => some (.problem "serverInternal" "Certificate not found in database" 500, st)
          | some crt => (chainOf st.store fuel cert crt).map (sendChain st nonce now)

def downloadCertificate [JoseLibrary] (st : AcmeStore) (fuel : ℕ) (orderId : String)
    (body : Option Jws) (nonce : String) (now : Time) : Option (Download × AcmeStore) :=
  match body with
  | none => downloadVerified st fuel orderId nonce now
  | some jws =>
    match verifyJws st jws (st.baseUrl ++ "/acme/cert/" ++ orderId) none now with
    | (.error e, st) => some (.problem "malformed" s!"Invalid JWS: {e}" 400, st)
    | (.ok _, st) => downloadVerified st fuel orderId nonce now

section Chain

variable {st : Store} {fuel : ℕ} {seen cas : List CA} {caref : Option String} {ca : CA}

theorem refid_mem_iff (hseen : ∀ ca ∈ seen, st.caByRef ca.refid = some ca)
    (h : st.issuerOf caref = some ca) : ca.refid ∈ seen.map CA.refid ↔ ca ∈ seen := by
  constructor
  · intro hmem
    obtain ⟨ca', hca', hrefid⟩ := List.mem_map.mp hmem
    have hsame := hseen ca' hca'
    rw [hrefid, caByRef_of_issuerOf h] at hsame
    rwa [Option.some.inj hsame]
  · exact List.mem_map_of_mem

theorem addIssuers_of_none {refids : List String} (h : st.issuerOf caref = none) :
    addIssuers st fuel refids caref = some (.ok []) := by
  unfold addIssuers
  cases hcaref : present caref with
  | none => rfl
  | some refid =>
    have hmissing : st.caByRef refid = none := by
      change (present caref).bind st.caByRef = none at h
      rwa [hcaref] at h
    dsimp only
    split_ifs
    · rfl
    · rw [hmissing]

theorem addIssuers_of_seen {refids : List String} (h : st.issuerOf caref = some ca)
    (hseen : ca.refid ∈ refids) : addIssuers st fuel refids caref = some (.ok []) := by
  obtain ⟨refid, (hcaref : present caref = some refid), hca⟩ := Option.bind_eq_some_iff.mp h
  rw [refid_of_caByRef hca] at hseen
  unfold addIssuers
  rw [hcaref]
  exact if_pos hseen

theorem addIssuers_of_new {refids : List String} (h : st.issuerOf caref = some ca)
    (hnew : ca.refid ∉ refids) : addIssuers st (fuel + 1) refids caref =
      match pemOf ca.crt with
      | .error e => some (.error e)
      | .ok pem => (addIssuers st fuel (ca.refid :: refids) ca.caref).map fun issuers =>
          (pem :: ·) <$> issuers := by
  obtain ⟨refid, (hcaref : present caref = some refid), hca⟩ := Option.bind_eq_some_iff.mp h
  rw [refid_of_caByRef hca] at hnew ⊢
  rw [addIssuers, hcaref]
  dsimp only
  rw [if_neg hnew, hca]

theorem addIssuers_of_climb
    (hcas : climbUnseen st.parentCa fuel seen (st.issuerOf caref) = some cas)
    (hseen : ∀ ca ∈ seen, st.caByRef ca.refid = some ca) :
    addIssuers st fuel (seen.map CA.refid) caref = some (cas.mapM fun ca => pemOf ca.crt) := by
  induction fuel generalizing seen caref cas with
  | zero =>
    cases hissuer : st.issuerOf caref with
    | none =>
      rw [hissuer] at hcas
      cases hcas
      exact addIssuers_of_none hissuer
    | some ca =>
      rw [hissuer] at hcas
      by_cases hmem : ca ∈ seen
      · rw [climbUnseen_of_mem hmem] at hcas
        cases hcas
        exact addIssuers_of_seen hissuer ((refid_mem_iff hseen hissuer).mpr hmem)
      · have hnone : climbUnseen st.parentCa 0 seen (some ca) = none := if_neg hmem
        rw [hnone] at hcas
        cases hcas
  | succ fuel ih =>
    cases hissuer : st.issuerOf caref with
    | none =>
      rw [hissuer] at hcas
      cases hcas
      exact addIssuers_of_none hissuer
    | some ca =>
      rw [hissuer] at hcas
      by_cases hmem : ca ∈ seen
      · rw [climbUnseen_of_mem hmem] at hcas
        cases hcas
        exact addIssuers_of_seen hissuer ((refid_mem_iff hseen hissuer).mpr hmem)
      · rw [climbUnseen_of_notMem hmem] at hcas
        obtain ⟨above, habove, rfl⟩ := Option.map_eq_some_iff.mp hcas
        have hnext := ih habove (List.forall_mem_cons.mpr ⟨caByRef_of_issuerOf hissuer, hseen⟩)
        rw [addIssuers_of_new hissuer fun hin => hmem ((refid_mem_iff hseen hissuer).mp hin),
          List.mapM_cons]
        cases pemOf ca.crt with
        | error e => rfl
        | ok pem =>
          rw [List.map_cons] at hnext
          dsimp only
          rw [hnext]
          cases above.mapM fun ca => pemOf ca.crt <;> rfl

/-- Whatever authorities refer to, the loop ends; and the chain is the certificate, then its issuing
authority, and on from each to the one that it refers to, each once, up to one that refers to none
or to one that is missing or was there before. A column that is no base64 raises an exception. -/
theorem chainOf_eq (st : Store) (cert : Certificate) (crt : Encoded CertPem) :
    ∃ cas next, WholeClimb st.parentCa [] (st.issuerOf cert.caref) cas next ∧
      ∀ fuel, st.cas.rows.length ≤ fuel → chainOf st fuel cert crt = some do
        let pem ← pemOf crt
        let issuers ← cas.mapM fun ca => pemOf ca.crt
        return pem :: issuers := by
  have hparents : ∀ a b, st.parentCa a = some b → b ∈ st.cas.rows := fun _ _ => mem_of_issuerOf
  have hissuer : ∀ ca ∈ st.issuerOf cert.caref, ca ∈ st.cas.rows := fun _ => mem_of_issuerOf
  obtain ⟨cas, next, hcas, hclimb⟩ := exists_climbUnseen hparents hissuer List.nodup_nil
    (List.nil_subset _) (Nat.le_add_left st.cas.rows.length _)
  refine ⟨cas, next, hclimb, ?_⟩
  intro fuel hfuel
  have hissuers := addIssuers_of_climb (climbUnseen_mono hcas hfuel)
    fun ca hca => absurd hca List.not_mem_nil
  rw [List.map_nil] at hissuers
  unfold chainOf
  cases pemOf crt with
  | error e => rfl
  | ok pem =>
    dsimp only
    rw [hissuers]
    cases cas.mapM fun ca => pemOf ca.crt <;> rfl

def mutualCas : Store :=
  { sampleStore with
    cas := ⟨[{ sampleCa with caref := some "sub" },
      { sampleCa with id := 2, refid := "sub", caref := some "root" }], by decide⟩ }

example : chainOf mutualCas 2 { refid := "www", descr := "www", caref := some "sub" }
    (.base64 ⟨sampleCaCert, []⟩) =
      some (.ok [⟨sampleCaCert, []⟩, ⟨sampleCaCert, []⟩, ⟨sampleCaCert, []⟩]) := by decide

end Chain

end AcmeApi

end CaManager
