import CaManager.Library.Dictionaries
import CaManager.Library.Matching
import CaManager.Store.Imports
import CaManager.Store.Operations

/-!
# Matching the keys of a bundle

The matcher gives each private key of a bundle the first certificate with its public key that has
no key yet, and the keys that are left the first such request. It reads the text of a key without a
passphrase. The parser has read it with the one that came along, but keeps the text as it was, so
that an encrypted key is left over even where a certificate waits for it.
-/

namespace CaManager

open Library

/-- The PEM text of a private key: readable as it is, only with a passphrase, or not at all. -/
inductive KeyText
  | plain (key : PublicKey)
  | encrypted (key : PublicKey) (passphrase : String)
  | unreadable
  deriving Repr, DecidableEq

namespace KeyText

/-- `load_pem_private_key`, which refuses a passphrase that is not needed. -/
def load (password : Option String) : KeyText → Option PublicKey
  | plain key => if password = none then some key else none
  | encrypted key passphrase => if password = some passphrase then some key else none
  | unreadable => none

/-- The public key of a key that came with a passphrase, if it can be read at all. -/
def publicKey (password : Option String) (text : KeyText) : Option PublicKey :=
  (text.load none).or (text.load password)

theorem publicKey_of_load {text : KeyText} {key : PublicKey} (h : text.load none = some key)
    (password : Option String) : text.publicKey password = some key := by
  rw [publicKey, h, Option.some_or]

end KeyText

/-- What an object of a bundle holds, by its type. -/
inductive RawPem
  | certificate (pem : CertPem)
  | privateKey (text : KeyText)
  | csr (request : Csr)
  deriving Repr, DecidableEq

namespace RawPem

def certificate? : RawPem → Option CertPem
  | certificate pem => some pem
  | _ => none

def privateKey? : RawPem → Option KeyText
  | privateKey text => some text
  | _ => none

def csr? : RawPem → Option Csr
  | csr request => some request
  | _ => none

end RawPem

/-- What the matcher reports, with the places of the objects in the bundle. -/
structure KeyMatching where
  matchedPairs : List (ℕ × ℕ)
  orphanKeys : List ℕ
  certsWithoutKey : List ℕ
  csrKeyPairs : List (ℕ × ℕ)
  deriving Repr, DecidableEq

def KeyMatching.matchedKeys (m : KeyMatching) : List ℕ :=
  m.matchedPairs.map Prod.fst ++ m.csrKeyPairs.map Prod.snd

/-- What the matcher notes on an object. The key of a request is noted in the field for
certificates. -/
structure MatchNote where
  matchedCertIndex : Option ℕ
  matchedKeyIndex : Option ℕ
  deriving Repr, DecidableEq

namespace KeyMatcher

section Places

variable {α : Type}

def enumerate (type : RawPem → Option α) (objects : List RawPem) : List (ℕ × α) :=
  objects.zipIdx.filterMap fun p => (type p.1).map fun a => (p.2, a)

theorem nodup_enumerate (type : RawPem → Option α) (objects : List RawPem) :
    ((enumerate type objects).map Prod.fst).Nodup := by
  have hplaces : (objects.zipIdx.map Prod.snd).Nodup := by
    rw [List.zipIdx_map_snd]
    exact List.nodup_range'
  have hsub : ((enumerate type objects).map Prod.fst).Sublist (objects.zipIdx.map Prod.snd) := by
    unfold enumerate
    generalize objects.zipIdx = l
    induction l with
    | nil => simp
    | cons p l ih =>
      cases htype : type p.1 with
      | none => simpa [htype] using ih.cons p.2
      | some a => simpa [htype] using ih
  exact hplaces.sublist hsub

end Places

def keys : List RawPem → List (ℕ × KeyText) := enumerate RawPem.privateKey?

def certs : List RawPem → List (ℕ × CertPem) := enumerate RawPem.certificate?

def csrs : List RawPem → List (ℕ × Csr) := enumerate RawPem.csr?

/-- `_keys_match`. The key is loaded without a passphrase. -/
def keysMatch (key : KeyText) (cert : CertPem) : Bool :=
  key.load none = some cert.leaf.publicKey

/-- `_key_matches_csr` -/
def keyMatchesCsr (key : KeyText) (csr : Csr) : Bool :=
  key.load none = some csr.publicKey

def certificatePairs (objects : List RawPem) : List (ℕ × ℕ) :=
  matchUp keysMatch (certs objects) (keys objects)

def remainingKeys (objects : List RawPem) : List (ℕ × KeyText) :=
  (keys objects).filter fun key => key.1 ∉ (certificatePairs objects).map Prod.fst

def requestPairs (objects : List RawPem) : List (ℕ × ℕ) :=
  matchUp keyMatchesCsr (csrs objects) (remainingKeys objects)

def matchAll (objects : List RawPem) : KeyMatching :=
  let matchedPairs := certificatePairs objects
  let csrPairs := requestPairs objects
  let matchedKeyIndices := matchedPairs.map Prod.fst ++ csrPairs.map Prod.fst
  let matchedCertIndices := matchedPairs.map Prod.snd
  { matchedPairs
    orphanKeys := ((keys objects).map Prod.fst).filter (· ∉ matchedKeyIndices)
    certsWithoutKey := ((certs objects).map Prod.fst).filter (· ∉ matchedCertIndices)
    csrKeyPairs := csrPairs.map Prod.swap }

def note (m : KeyMatching) (i : ℕ) : MatchNote where
  matchedCertIndex := (m.matchedPairs ++ m.csrKeyPairs.map Prod.swap).lookup i
  matchedKeyIndex := (m.matchedPairs.map Prod.swap ++ m.csrKeyPairs).lookup i

/-- What is asked of a matching: what is paired has one public key, nothing is used twice, no
certificate is without a key that is there and not used, and what is not paired is reported so. -/
structure Exact (password : Option String) (objects : List RawPem) (m : KeyMatching) : Prop where
  certificates : ∀ pair ∈ m.matchedPairs, ∃ key pem, (pair.1, key) ∈ keys objects ∧
    (pair.2, pem) ∈ certs objects ∧ key.publicKey password = some pem.leaf.publicKey
  requests : ∀ pair ∈ m.csrKeyPairs, ∃ csr key, (pair.1, csr) ∈ csrs objects ∧
    (pair.2, key) ∈ keys objects ∧ key.publicKey password = some csr.publicKey
  keysOnce : m.matchedKeys.Nodup
  certificatesOnce : (m.matchedPairs.map Prod.snd).Nodup
  requestsOnce : (m.csrKeyPairs.map Prod.fst).Nodup
  maximal : ∀ cert ∈ certs objects, cert.1 ∉ m.matchedPairs.map Prod.snd →
    ∀ key ∈ keys objects, key.1 ∉ m.matchedKeys →
      key.2.publicKey password ≠ some cert.2.leaf.publicKey
  orphanKeys : (m.matchedKeys ++ m.orphanKeys).Perm ((keys objects).map Prod.fst)
  certsWithoutKey :
    (m.matchedPairs.map Prod.snd ++ m.certsWithoutKey).Perm ((certs objects).map Prod.fst)

/-- No certificate waits for a key that only a passphrase opens: for each such key there are as many
readable keys with its public key as there are certificates. -/
def SealedKeysSpare (password : Option String) (objects : List RawPem) : Prop :=
  ∀ key ∈ keys objects, key.2.load none = none → ∀ p, key.2.publicKey password = some p →
    (certs objects).countP (fun cert => cert.2.leaf.publicKey = p) ≤
      (keys objects).countP fun key => key.2.load none = some p

section Matched

variable (password : Option String) (objects : List RawPem)

theorem isMatching_certificatePairs :
    IsMatching keysMatch (certs objects) (keys objects) (certificatePairs objects) :=
  isMatching_matchUp (nodup_enumerate _ objects)

theorem nodup_remainingKeys : ((remainingKeys objects).map Prod.fst).Nodup :=
  (nodup_enumerate _ objects).sublist (List.filter_sublist.map _)

theorem isMatching_requestPairs :
    IsMatching keyMatchesCsr (csrs objects) (remainingKeys objects) (requestPairs objects) :=
  isMatching_matchUp (nodup_remainingKeys objects)

theorem mem_remainingKeys {objects : List RawPem} {key : ℕ × KeyText} :
    key ∈ remainingKeys objects ↔
      key ∈ keys objects ∧ key.1 ∉ (certificatePairs objects).map Prod.fst := by
  simp only [remainingKeys, List.mem_filter, decide_eq_true_eq]

theorem matchedKeys_matchAll :
    (matchAll objects).matchedKeys =
      (certificatePairs objects).map Prod.fst ++ (requestPairs objects).map Prod.fst := by
  simp [KeyMatching.matchedKeys, matchAll, Function.comp_def]

theorem exists_of_mem_requestPairs {i : ℕ} (h : i ∈ (requestPairs objects).map Prod.fst) :
    i ∈ (keys objects).map Prod.fst ∧ i ∉ (certificatePairs objects).map Prod.fst := by
  obtain ⟨pair, hpair, rfl⟩ := List.mem_map.mp h
  obtain ⟨key, _, hkey, _⟩ := (isMatching_requestPairs objects).sound pair hpair
  obtain ⟨hmem, hleft⟩ := mem_remainingKeys.mp hkey
  exact ⟨List.mem_map.mpr ⟨_, hmem, rfl⟩, hleft⟩

theorem nodup_matchedKeys : (matchAll objects).matchedKeys.Nodup := by
  rw [matchedKeys_matchAll, List.nodup_append]
  refine ⟨(isMatching_certificatePairs objects).keysOnce,
    (isMatching_requestPairs objects).keysOnce, ?_⟩
  intro i hi j hj heq
  exact (exists_of_mem_requestPairs objects hj).2 (heq ▸ hi)

theorem matchedKeys_subset : (matchAll objects).matchedKeys ⊆ (keys objects).map Prod.fst := by
  intro i hi
  rw [matchedKeys_matchAll, List.mem_append] at hi
  rcases hi with hi | hi
  · obtain ⟨pair, hpair, rfl⟩ := List.mem_map.mp hi
    obtain ⟨key, _, hkey, _⟩ := (isMatching_certificatePairs objects).sound pair hpair
    exact List.mem_map.mpr ⟨_, hkey, rfl⟩
  · exact (exists_of_mem_requestPairs objects hi).1

theorem perm_append_filter_notMem {l part : List ℕ} (hl : l.Nodup) (hpart : part.Nodup)
    (hsub : part ⊆ l) : (part ++ l.filter (· ∉ part)).Perm l := by
  have hnodup : (part ++ l.filter (· ∉ part)).Nodup := by
    rw [List.nodup_append]
    refine ⟨hpart, hl.filter _, ?_⟩
    intro i hi j hj heq
    have hnot := (List.mem_filter.mp hj).2
    rw [decide_eq_true_eq] at hnot
    exact hnot (heq ▸ hi)
  rw [List.perm_ext_iff_of_nodup hnodup hl]
  intro i
  simp only [List.mem_append, List.mem_filter, decide_eq_true_eq]
  constructor
  · rintro (hi | hi)
    · exact hsub hi
    · exact hi.1
  · intro hi
    by_cases hmem : i ∈ part
    · exact .inl hmem
    · exact .inr ⟨hi, hmem⟩

/-- A certificate without a key and an unused key with its public key are an encrypted key and a
certificate too many. -/
theorem maximal_iff :
    (∀ cert ∈ certs objects, cert.1 ∉ (certificatePairs objects).map Prod.snd →
      ∀ key ∈ keys objects, key.1 ∉ (matchAll objects).matchedKeys →
        key.2.publicKey password ≠ some cert.2.leaf.publicKey) ↔
      SealedKeysSpare password objects := by
  have hmatching := isMatching_certificatePairs objects
  have hleft := fun p => hmatching.exists_left_iff (nodup_enumerate _ objects)
    (nodup_enumerate _ objects) (c := p)
  constructor
  · intro hmaximal key hkey hsealed p hp
    by_contra hfew
    push Not at hfew
    obtain ⟨cert, hcert, hhue, hwaits⟩ := (hleft p).mpr hfew
    refine hmaximal cert hcert hwaits key hkey ?_ (hp.trans (congrArg some hhue.symm))
    -- a key that is not readable fits nothing
    rw [matchedKeys_matchAll, List.mem_append, not_or]
    have hunfit : ∀ text, (key.1, text) ∈ keys objects → text.load none = none := by
      intro text htext
      have hsame := List.inj_on_of_nodup_map (nodup_enumerate _ objects) htext hkey rfl
      rw [← hsame] at hsealed
      exact hsealed
    constructor
    · intro hmem
      obtain ⟨pair, hpair, heq⟩ := List.mem_map.mp hmem
      obtain ⟨text, _, htext, _, hfits⟩ := hmatching.sound pair hpair
      rw [keysMatch, hunfit text (heq ▸ htext)] at hfits
      simp at hfits
    · intro hmem
      obtain ⟨pair, hpair, heq⟩ := List.mem_map.mp hmem
      obtain ⟨text, _, htext, _, hfits⟩ := (isMatching_requestPairs objects).sound pair hpair
      rw [keyMatchesCsr, hunfit text (heq ▸ (mem_remainingKeys.mp htext).1)] at hfits
      simp at hfits
  · intro hspare cert hcert hwaits key hkey hunused hp
    rw [matchedKeys_matchAll, List.mem_append, not_or] at hunused
    have hunfit := hmatching.maximal key hkey hunused.1 cert hcert hwaits
    rw [keysMatch, decide_eq_false_iff_not] at hunfit
    have hsealed : key.2.load none = none := by
      rw [Option.eq_none_iff_forall_ne_some]
      intro p hload
      have hread := KeyText.publicKey_of_load hload password
      rw [hp] at hread
      exact hunfit (hload.trans hread.symm)
    have hfew := (hleft cert.2.leaf.publicKey).mp ⟨cert, hcert, rfl, hwaits⟩
    have henough := hspare key hkey hsealed _ hp
    omega

/-- The matching is exact if and only if no certificate waits for an encrypted key. -/
theorem matchAll_exact_iff :
    Exact password objects (matchAll objects) ↔ SealedKeysSpare password objects := by
  constructor
  · intro h
    exact (maximal_iff password objects).mp h.maximal
  · intro h
    refine ⟨?_, ?_, nodup_matchedKeys objects, (isMatching_certificatePairs objects).targetsOnce,
      ?_, (maximal_iff password objects).mpr h, ?_, ?_⟩
    · intro pair hpair
      obtain ⟨key, pem, hkey, hpem, hfits⟩ :=
        (isMatching_certificatePairs objects).sound pair hpair
      exact ⟨key, pem, hkey, hpem, KeyText.publicKey_of_load (of_decide_eq_true hfits) password⟩
    · intro pair hpair
      obtain ⟨pair', hpair', rfl⟩ := List.mem_map.mp hpair
      obtain ⟨key, csr, hkey, hcsr, hfits⟩ := (isMatching_requestPairs objects).sound pair' hpair'
      exact ⟨csr, key, hcsr, (mem_remainingKeys.mp hkey).1,
        KeyText.publicKey_of_load (of_decide_eq_true hfits) password⟩
    · have honce := (isMatching_requestPairs objects).targetsOnce
      simpa [matchAll, Function.comp_def] using honce
    · have horphans : (matchAll objects).orphanKeys =
          ((keys objects).map Prod.fst).filter (· ∉ (matchAll objects).matchedKeys) := by
        rw [matchedKeys_matchAll]
        rfl
      rw [horphans]
      exact perm_append_filter_notMem (nodup_enumerate _ objects) (nodup_matchedKeys objects)
        (matchedKeys_subset objects)
    · refine perm_append_filter_notMem (nodup_enumerate _ objects)
        (isMatching_certificatePairs objects).targetsOnce ?_
      intro j hj
      obtain ⟨pair, hpair, rfl⟩ := List.mem_map.mp hj
      obtain ⟨_, pem, _, hpem, _⟩ := (isMatching_certificatePairs objects).sound pair hpair
      exact List.mem_map.mpr ⟨_, hpem, rfl⟩

def sealedBundle : List RawPem :=
  [.certificate ⟨sampleCaCert, []⟩, .privateKey (.encrypted sampleCaCert.publicKey "secret")]

/-- The certificate is left without its key. -/
theorem sealedBundle_not_exact :
    ¬Exact (some "secret") sealedBundle (matchAll sealedBundle) := by
  intro h
  exact h.maximal (0, ⟨sampleCaCert, []⟩) (by decide) (by decide)
    (1, .encrypted sampleCaCert.publicKey "secret") (by decide) (by decide) (by decide)

end Matched

section Pairing

variable {α : Type} {fits : KeyPem → α → Bool} {targets : List (ℕ × α)}

theorem eraseP_eq_filter {l : List (ℕ × α)} (hl : (l.map Prod.fst).Nodup) {p : ℕ × α → Bool}
    {t : ℕ × α} (h : l.find? p = some t) : l.eraseP p = l.filter fun a => a.1 ≠ t.1 := by
  induction l with
  | nil => cases h
  | cons a l ih =>
    rw [List.map_cons, List.nodup_cons] at hl
    cases hp : p a with
    | true =>
      rw [List.find?_cons_of_pos hp, Option.some.injEq] at h
      subst h
      have hrest : l.filter (fun b => b.1 ≠ a.1) = l := by
        rw [List.filter_eq_self]
        intro b hb
        have hne : b.1 ≠ a.1 := fun heq => hl.1 (List.mem_map.mpr ⟨b, hb, heq⟩)
        simpa using hne
      rw [List.eraseP_cons_of_pos hp, List.filter_cons_of_neg (by simp), hrest]
    | false =>
      rw [List.find?_cons_of_neg (by simp [hp])] at h
      have hne : a.1 ≠ t.1 := by
        intro heq
        exact hl.1 (List.mem_map.mpr ⟨t, List.mem_of_find?_eq_some h, heq.symm⟩)
      rw [List.eraseP_cons_of_neg (by simp [hp]), ih hl.2 h,
        List.filter_cons_of_pos (by simpa using hne)]

/-- The pairing of the importer, which takes away what is paired, is the matching in turn, which
marks it. -/
theorem pairUp_eq_matchUp (ks : List KeyPem) (htargets : (targets.map Prod.fst).Nodup) :
    (SmartImporter.pairUp (fun key t => fits key t.2) ks targets).1.map (fun p => (p.1, p.2.1)) =
      matchUp fits targets (ks.map fun key => (key, key)) := by
  have hfold : ∀ pairs : List (KeyPem × ℕ),
      (ks.map fun key => (key, key)).foldl (matchInto fits targets) pairs =
        pairs ++ (SmartImporter.pairUp (fun key t => fits key t.2) ks
          (targets.filter fun t => t.1 ∉ pairs.map Prod.snd)).1.map fun p => (p.1, p.2.1) := by
    induction ks with
    | nil => simp [SmartImporter.pairUp]
    | cons key ks ih =>
      intro pairs
      have hfree : ((targets.filter fun t => t.1 ∉ pairs.map Prod.snd).map Prod.fst).Nodup :=
        htargets.sublist (List.filter_sublist.map _)
      have hfound : targets.find? (fun t => t.1 ∉ pairs.map Prod.snd && fits key t.2) =
          (targets.filter fun t => t.1 ∉ pairs.map Prod.snd).find? fun t => fits key t.2 := by
        rw [List.find?_filter]
        simp
      rw [List.map_cons, List.foldl_cons, ih, matchInto, SmartImporter.pairUp, hfound]
      cases hfind : (targets.filter fun t => t.1 ∉ pairs.map Prod.snd).find?
          fun t => fits key t.2 with
      | none => rfl
      | some t =>
        have hrest : (targets.filter fun t' => t'.1 ∉ (pairs ++ [(key, t.1)]).map Prod.snd) =
            (targets.filter fun t' => t'.1 ∉ pairs.map Prod.snd).eraseP fun t' =>
              fits key t'.2 := by
          rw [eraseP_eq_filter hfree hfind, List.filter_filter]
          refine List.filter_congr fun t' _ => ?_
          simp only [List.map_append, List.map_cons, List.map_nil, List.mem_append,
            List.mem_singleton, not_or, Bool.decide_and, Bool.and_comm]
        simp only [hrest, List.append_assoc, List.map_cons, List.cons_append, List.nil_append]
  simpa [matchUp] using (hfold []).symm

end Pairing

end KeyMatcher

end CaManager
