import CaManager.Tools.ConversionInputs

/-!
# What a conversion keeps

A conversion is to keep every object of its input: the text that it writes is read as the same
objects, a protected file has a certificate with its own key and all other certificates, and a
format that has no place for an object is refused. Objects are lost where they do not load a second
time without their password, where the body of a block is more than data, and where a format takes
the first object of a kind and forgets the others.
-/

namespace CaManager

open Library

section Requests

variable [CryptographyLibrary] [X509Library] [KeyIdLibrary]

/-! ### Requests -/

namespace Converter

open ConverterInput

def isKey (o : CryptoObject) : Bool := o.privateKey?.isSome

omit [X509Library] [KeyIdLibrary] in
theorem isKey_of_loadObject {d : DetectedObject} {o : CryptoObject} (h : loadObject d = some o) :
    isKey o = isPrivateKey d := by
  unfold loadObject at h
  unfold isPrivateKey
  cases hd : d.description with
  | certificate _ _ =>
    rw [hd] at h
    obtain ⟨_, _, rfl⟩ := Option.map_eq_some_iff.mp h
    rfl
  | privateKey _ _ =>
    rw [hd] at h
    obtain ⟨_, _, rfl⟩ := Option.map_eq_some_iff.mp h
    rfl
  | csr _ _ =>
    rw [hd] at h
    obtain ⟨_, _, rfl⟩ := Option.map_eq_some_iff.mp h
    rfl

omit [X509Library] [KeyIdLibrary] in
theorem filterMap_keys (found : List DetectedObject) :
    (found.filter isPrivateKey).filterMap loadObject =
      (found.filterMap loadObject).filter isKey := by
  induction found with
  | nil => rfl
  | cons d found ih =>
    cases hload : loadObject d with
    | none =>
      rw [List.filterMap_cons_none hload, List.filter_cons]
      split_ifs
      · rw [List.filterMap_cons_none hload, ih]
      · exact ih
    | some o =>
      rw [List.filterMap_cons_some hload, List.filter_cons, List.filter_cons,
        isKey_of_loadObject hload]
      split_ifs
      · rw [List.filterMap_cons_some hload, ih]
      · exact ih

structure Given (r : Request) where
  raw : RawInput
  input : ConverterInput
  reads : readInput (stripSpaces r.pem) = .ok raw
  holds : input.In raw
  key : Option (RawInput × ConverterInput)
  key_holds : match key with
    | none => stripSpaces r.privateKey = ""
    | some (keyRaw, i) => readInput (stripSpaces r.privateKey) = .ok keyRaw ∧ i.In keyRaw
  chain : Option ConverterInput
  chain_holds : match chain with
    | none => stripSpaces r.chain = ""
    | some i => i.In (.text (stripSpaces r.chain))

namespace Texts

theorem render_eq (gap : List Char) (parts : List (KnownBlock × List Char)) :
    Pem.render KnownBlock.block gap parts = gap ++ Pem.render KnownBlock.block [] parts := by
  cases parts with
  | nil => exact (List.append_nil gap).symm
  | cons part parts => rfl

omit [CryptographyLibrary] [X509Library] [KeyIdLibrary] in
theorem unmarked_newlines {gap : List Char} (h : ∀ c ∈ gap, c = '\n') : Pem.Unmarked gap := by
  have hdash : '-' ∉ gap := fun hmem => absurd (h '-' hmem) (by decide)
  refine ⟨fun hpart => hdash (hpart.subset List.mem_cons_self), fun hpart => ?_⟩
  exact hdash (hpart.subset List.mem_cons_self)

variable [ConversionLibrary] {objects : List CryptoObject}

theorem exists_parts (hback : ∀ o ∈ objects, WritesBack o) (hd : ∀ o ∈ objects, o.Described) :
    ∃ parts : List (KnownBlock × List Char),
      ("\n".intercalate (objects.map pem)).toList = Pem.render KnownBlock.block [] parts ∧
      (∀ part ∈ parts, part.1.block.plain = true ∧ ∀ c ∈ part.2, c = '\n') ∧
      parts.map (fun part => part.1.opened none) = objects.map some := by
  induction objects with
  | nil => exact ⟨[], rfl, (fun _ h => nomatch h), rfl⟩
  | cons o objects ih =>
    obtain ⟨parts, htext, hparts, hopened⟩ := ih
      (fun o ho => hback o (List.mem_cons_of_mem _ ho))
      (fun o ho => hd o (List.mem_cons_of_mem _ ho))
    obtain ⟨kind, block, hlabel, hplain, hpem, _, hload⟩ := hback o List.mem_cons_self
    have hreadable := BlockKind.isSome_contents_of_load hload (hd o List.mem_cons_self)
    let b : KnownBlock := ⟨kind, block, hlabel, hreadable⟩
    have hopen : b.opened none = some o := hload
    cases objects with
    | nil =>
      refine ⟨[(b, ['\n'])], ?_, ?_, ?_⟩
      · rw [List.map_singleton, String.intercalate_singleton, hpem, String.toList_ofList]
        rfl
      · intro part hpart
        obtain rfl := List.mem_singleton.mp hpart
        exact ⟨hplain, fun c hc => List.mem_singleton.mp hc⟩
      · rw [List.map_singleton, List.map_singleton, hopen]
    | cons o' objects =>
      refine ⟨(b, ['\n', '\n']) :: parts, ?_, ?_, ?_⟩
      · rw [List.map_cons, List.map_cons, String.intercalate_cons_cons, String.toList_append,
          String.toList_append, ← List.map_cons, htext, hpem, String.toList_ofList, Pem.render,
          render_eq ['\n', '\n']]
        simp only [List.append_assoc, List.nil_append]
        rfl
      · intro part hpart
        rcases List.mem_cons.mp hpart with rfl | hpart
        · exact ⟨hplain, fun c hc => by simpa using hc⟩
        · exact hparts part hpart
      · rw [List.map_cons, hopened, hopen]
        rfl

theorem map_loadObject_parse (hback : ∀ o ∈ objects, WritesBack o)
    (hd : ∀ o ∈ objects, o.Described) (hne : objects ≠ []) :
    (SmartParser.parse ("\n".intercalate (objects.map pem)) none).map loadObject =
      objects.map some := by
  obtain ⟨parts, htext, hparts, hopened⟩ := exists_parts hback hd
  let t : PemBundle :=
    { gap := [], parts, gap_marks := by decide
      parts_marks := fun part hpart => unmarked_newlines (hparts part hpart).2 }
  have hblocks : t.blocks ≠ [] := by
    intro hnil
    have hparts' : parts = [] := List.map_eq_nil_iff.mp hnil
    rw [hparts'] at hopened
    exact hne (List.map_eq_nil_iff.mp hopened.symm)
  have hplain : (t.blocks.filter fun b => b.block.plain) = t.blocks := by
    refine List.filter_eq_self.mpr fun b hb => ?_
    obtain ⟨part, hpart, rfl⟩ := List.mem_map.mp hb
    exact (hparts part hpart).1
  have htext' : "\n".intercalate (objects.map pem) = t.text :=
    String.toList_inj.mp (by rw [htext, PemBundle.text, String.toList_ofList])
  have hparse : SmartParser.parse t.text none = PemBundle.found none t.blocks := by
    rw [PemBundle.parse_text, PemBundle.binaryObjects_text hblocks, Option.getD_none, hplain]
  rw [htext', hparse, ConverterInput.map_found, ← hopened, PemBundle.blocks, List.map_map]
  rfl

end Texts

namespace Given

def ofText {r : Request} (t : PemBundle) (hne : t.blocks ≠ []) (htext : stripSpaces r.pem = t.text)
    (hstart : startsWith t.text "BASE64:" = false) (hkey : r.privateKey = "")
    (hchain : r.chain = "") : Given r where
  raw := .text t.text
  input := .bundle t hne
  reads := by
    rw [readInput, htext, hstart]
    rfl
  holds := rfl
  key := none
  key_holds := by
    rw [hkey]
    rfl
  chain := none
  chain_holds := by
    rw [hchain]
    rfl

variable {r : Request} (g : Given r)

def Opens : Prop :=
  g.input.Opens r.givenPassword ∧ ∀ k ∈ g.key, k.2.Opens r.givenPassword

def objects : List CryptoObject :=
  g.input.objects r.givenPassword ++
    g.key.elim [] fun k => (k.2.objects r.givenPassword).filter isKey

def reached : List CryptoObject :=
  g.input.reachedAgain r.givenPassword ++
    g.key.elim [] fun k => (k.2.reached r.givenPassword).filter isKey

def chainCerts : List X509 :=
  g.chain.elim [] fun i => (i.objects none).filterMap CryptoObject.certificate?

def chainReached : List X509 :=
  g.chain.elim [] fun i => (i.reached none).filterMap CryptoObject.certificate?

theorem reached_sublist : g.reached.Sublist g.objects := by
  refine (g.input.reachedAgain_sublist _).append ?_
  cases g.key with
  | none => exact List.Sublist.refl _
  | some k => exact (k.2.reached_sublist _).filter _

theorem chainReached_sublist : g.chainReached.Sublist g.chainCerts := by
  rw [chainReached, chainCerts]
  cases g.chain with
  | none => exact List.Sublist.refl _
  | some i => exact (i.reached_sublist _).filterMap _

theorem described_of_mem {o : CryptoObject} (h : o ∈ g.objects) : o.Described := by
  rcases List.mem_append.mp h with h | h
  · exact g.input.described_of_mem h
  · cases hkey : g.key with
    | none =>
      rw [hkey] at h
      cases h
    | some k =>
      rw [hkey] at h
      exact k.2.described_of_mem (List.mem_of_mem_filter h)

/-- The objects that the parser may have to load from the text that the library writes. -/
def written : List CryptoObject :=
  g.input.objects r.givenPassword ++ g.key.elim [] fun k => k.2.objects r.givenPassword

variable [ConversionLibrary]

omit [ConversionLibrary] in
theorem chainCerts_eq : Converter.chainCerts r = g.chainReached := by
  have hholds := g.chain_holds
  rw [Converter.chainCerts, chainReached]
  cases hchain : g.chain with
  | none =>
    rw [hchain] at hholds
    exact if_pos hholds
  | some i =>
    rw [hchain] at hholds
    rw [if_neg (text_ne_empty hholds)]
    cases i with
    | pfx f => cases hholds
    | bundle t hne =>
      have hparse := parse_bundle hholds hne none
      rw [parse] at hparse
      rw [hparse, filterMap_found, filterMap_plain]
      rfl

theorem convertCertificate_eq (hback : ∀ o ∈ g.written, WritesBack o) : convertCertificate r =
    if lacksPassword r g.raw then .error "Password is required for PKCS12/PFX files"
    else if g.reached = [] then
      .error "Could not parse input data. Supported formats: PEM, DER, PKCS12, PKCS7"
    else output r g.raw.detectedFormat g.reached := by
  have hkey : ∃ keys, keyObjects r = .ok keys ∧ keys.filterMap loadObject =
      g.key.elim [] fun k => (k.2.reached r.givenPassword).filter isKey := by
    have hholds := g.key_holds
    rw [keyObjects]
    cases hkey : g.key with
    | none =>
      rw [hkey] at hholds
      exact ⟨[], if_pos hholds, rfl⟩
    | some k =>
      rw [hkey] at hholds
      rw [if_neg (content_ne_empty hholds.2 hholds.1), hholds.1]
      refine ⟨_, rfl, ?_⟩
      rw [filterMap_keys, loads hholds.2 r.givenPassword_ne]
      · rfl
      · intro o ho
        refine hback o (List.mem_append_right _ ?_)
        rw [hkey]
        exact (k.2.reached_sublist _).subset ho
  obtain ⟨keys, hkeys, hloaded⟩ := hkey
  rw [convertCertificate, if_neg (content_ne_empty g.holds g.reads), g.reads]
  dsimp only
  rw [hkeys]
  dsimp only
  rw [List.filterMap_append, hloaded,
    loads_inputObjects g.holds fun o ho => hback o (List.mem_append_left _ ho)]
  rfl

end Given

/-! ### The law -/

omit [X509Library] [KeyIdLibrary] in
variable [ConversionLibrary] in
/-- A container that is written is read as what is in it. -/
structure ContainersReadBack : Prop where
  pkcs12 : ∀ name key cert certs password data,
    ConversionLibrary.serializeKeyAndCertificates name key cert certs password = some data →
      CryptographyLibrary.loadKeyAndCertificates data (some password) =
        some (some key, some cert, certs.getD [])
  pkcs7 : ∀ certs data, ConversionLibrary.crl2pkcs7
      (String.join (certs.map CryptographyLibrary.certificatePem)) = some data →
    ∃ found, CryptographyLibrary.loadPemPkcs7Certificates data = some found ∧ found.Perm certs

omit [CryptographyLibrary] [X509Library] [KeyIdLibrary] in
theorem sorted_perm (loaded : List CryptoObject) : (sorted loaded).Perm loaded := by
  induction loaded with
  | nil => exact List.Perm.refl _
  | cons o loaded ih =>
    cases o with
    | certificate cert => exact ih.cons _
    | privateKey key => exact (List.perm_middle.append_right _).trans (ih.cons _)
    | csr request => exact List.perm_middle.trans (ih.cons _)

namespace Given

variable {r : Request} (g : Given r)

def certs : List X509 := g.reached.filterMap CryptoObject.certificate?

def keys : List PublicKey := g.reached.filterMap CryptoObject.privateKey?

def csrs : List Csr := g.reached.filterMap CryptoObject.csr?

variable [ConversionLibrary]

/-- Every object of the input opens, and is in the output; a protected file has a certificate with
its own key, and all other certificates. -/
structure Keeps (c : Conversion) : Prop where
  opens : g.Opens
  pem : c.format = "pem" →
    ((SmartParser.parse c.data none).map loadObject).Perm (g.objects.map some)
  der : c.format = "der" → ∃ o, g.objects = [o] ∧ c.data = Base64.b64encode (der o)
  pkcs12 : c.format = "pkcs12" → ∃ data key cert certs,
    c.data = Base64.b64encode data ∧
      CryptographyLibrary.loadKeyAndCertificates data (some r.pkcs12Password) =
        some (some key, some cert, certs) ∧
      cert.publicKey = key ∧
      (.privateKey key :: (cert :: certs).map .certificate).Perm
        (g.objects ++ g.chainCerts.map .certificate)
  pkcs7 : c.format = "pkcs7" → ∃ certs,
    CryptographyLibrary.loadPemPkcs7Certificates c.data = some certs ∧
      (certs.map .certificate).Perm (g.objects ++ g.chainCerts.map .certificate)

def Converts : Prop :=
  (∀ c, convertCertificate r = .ok c → g.Keeps c) ∧
    (r.outputFormat = "pem" → g.Opens → ∃ c, convertCertificate r = .ok c)

inductive Refused : Prop
  | password (h : lacksPassword r g.raw = true)
  | nothing (h : g.reached = [])
  | noCertificate (hformat : r.outputFormat = "pkcs12" ∨ r.outputFormat = "pkcs7")
      (h : g.certs = [])
  | noKey (hformat : r.outputFormat = "pkcs12") (h : g.keys = [])
  | noPassword (hformat : r.outputFormat = "pkcs12") (h : r.pkcs12Password = "")
  | notWritten (hformat : r.outputFormat = "pkcs12") (cert : X509) (certs : List X509)
      (key : PublicKey) (keys : List PublicKey) (hcerts : g.certs = cert :: certs)
      (hkeys : g.keys = key :: keys)
      (h : ConversionLibrary.serializeKeyAndCertificates "certificate" key cert
        (if certs ++ g.chainReached = [] then none else some (certs ++ g.chainReached))
        r.pkcs12Password = none)
  | notJoined (hformat : r.outputFormat = "pkcs7")
      (h : ConversionLibrary.crl2pkcs7 (String.join
        ((g.certs ++ g.chainReached).map CryptographyLibrary.certificatePem)) = none)
  | format (h : r.outputFormat ∉ ["pem", "der", "pkcs12", "pkcs7"])

/-- Every object opens, loads without the password and has a place in the format: the only object,
certificates and one key of the first of them, or certificates alone. -/
structure Fits : Prop where
  opens : g.Opens
  loads : g.reached = g.objects
  der : r.outputFormat = "der" → g.objects.length = 1
  pkcs12 : r.outputFormat = "pkcs12" → g.csrs = [] ∧ g.chainReached = g.chainCerts ∧
    ∃ key, g.keys = [key] ∧ ∀ cert ∈ g.certs.head?, cert.publicKey = key
  pkcs7 : r.outputFormat = "pkcs7" → g.keys = [] ∧ g.csrs = [] ∧ g.chainReached = g.chainCerts

variable {g}

omit [ConversionLibrary] in
theorem length_reached : g.certs.length + g.keys.length + g.csrs.length = g.reached.length := by
  have hlength := (sorted_perm g.reached).length_eq
  rw [sorted, List.length_append, List.length_append, List.length_map, List.length_map,
    List.length_map] at hlength
  exact hlength

omit [ConversionLibrary] in
theorem reached_eq (h : g.objects.length ≤ g.reached.length) : g.reached = g.objects :=
  g.reached_sublist.eq_of_length_le h

omit [ConversionLibrary] in
theorem input_objects_ne_nil (h : g.Opens) : g.input.objects r.givenPassword ≠ [] := by
  have hopens := h.1
  cases hinput : g.input with
  | bundle t hne =>
    rw [hinput] at hopens
    intro hnil
    obtain ⟨b, hb⟩ := List.exists_mem_of_ne_nil _ hne
    obtain ⟨o, ho⟩ := Option.isSome_iff_exists.mp (hopens b hb)
    have hmem : o ∈ t.blocks.filterMap (KnownBlock.opened r.givenPassword) :=
      List.mem_filterMap.mpr ⟨b, hb, ho⟩
    rw [show t.blocks.filterMap (KnownBlock.opened r.givenPassword) = [] from hnil] at hmem
    cases hmem
  | pfx f =>
    rw [hinput] at hopens
    have hobjects : (ConverterInput.pfx f).objects r.givenPassword = f.members := if_pos hopens
    rw [hobjects]
    exact f.members_ne_nil

omit [ConversionLibrary] in
theorem input_reached_eq (h : g.reached = g.objects) :
    g.input.reachedAgain r.givenPassword = g.input.objects r.givenPassword := by
  refine (g.input.reachedAgain_sublist _).eq_of_length_le ?_
  have hkeys : ((g.key.elim [] fun k => (k.2.reached r.givenPassword).filter isKey).length ≤
      (g.key.elim [] fun k => (k.2.objects r.givenPassword).filter isKey).length) := by
    cases g.key with
    | none => exact Nat.le_refl 0
    | some k => exact ((k.2.reached_sublist _).filter isKey).length_le
  have hlength := congrArg List.length h
  rw [reached, objects, List.length_append, List.length_append] at hlength
  omega

theorem lacksPassword_eq_false (hback : ∀ o ∈ g.written, WritesBack o) (h : g.Fits) :
    lacksPassword r g.raw = false := by
  by_contra hlacks
  rw [Bool.not_eq_false] at hlacks
  have hinput := input_reached_eq h.loads
  have hne := input_objects_ne_nil h.opens
  have hnil : r.givenPassword = none ∧ parse g.raw none = [] := by
    revert hlacks
    unfold lacksPassword
    cases g.raw with
    | text content => exact fun hfalse => nomatch hfalse
    | bytes data =>
      simp only [Bool.and_eq_true, decide_eq_true_eq]
      exact fun hall => hall.1.1
  have hloads := loads_inputObjects g.holds fun o ho => hback o (List.mem_append_left _ ho)
  rw [hinput, inputObjects, hnil.1, hnil.2] at hloads
  rw [hnil.1] at hne
  exact hne hloads.symm

/-! ### Texts and single objects -/

section Formats

variable {detectedFormat : String} {c : Conversion}

omit [ConversionLibrary] in
theorem mem_objects_of_sorted {o : CryptoObject} (h : o ∈ sorted g.reached) : o ∈ g.objects :=
  g.reached_sublist.subset ((sorted_perm g.reached).mem_iff.mp h)

omit [ConversionLibrary] in
theorem mem_written {o : CryptoObject} (h : o ∈ g.objects) : o ∈ g.written := by
  rcases List.mem_append.mp h with h | h
  · exact List.mem_append_left _ h
  · refine List.mem_append_right _ ?_
    cases hkey : g.key with
    | none =>
      rw [hkey] at h
      cases h
    | some k =>
      rw [hkey] at h
      exact List.mem_of_mem_filter h

theorem map_loadObject_toPem (hback : ∀ o ∈ g.written, WritesBack o) (hne : g.reached ≠ []) :
    (SmartParser.parse (toPem detectedFormat g.reached).data none).map loadObject =
      (sorted g.reached).map some := by
  apply Texts.map_loadObject_parse
  · exact fun o ho => hback o (mem_written (mem_objects_of_sorted ho))
  · exact fun o ho => g.described_of_mem (mem_objects_of_sorted ho)
  · intro hnil
    have hperm := sorted_perm g.reached
    rw [hnil] at hperm
    exact hne hperm.nil_eq.symm

theorem keeps_toPem (hback : ∀ o ∈ g.written, WritesBack o) (hne : g.reached ≠ []) (h : g.Fits) :
    g.Keeps (toPem detectedFormat g.reached) where
  opens := h.opens
  pem _ := by
    rw [map_loadObject_toPem hback hne, ← h.loads]
    exact (sorted_perm g.reached).map some
  der hformat := absurd hformat (by decide : "pem" ≠ "der")
  pkcs12 hformat := absurd hformat (by decide : "pem" ≠ "pkcs12")
  pkcs7 hformat := absurd hformat (by decide : "pem" ≠ "pkcs7")

theorem fits_of_toPem (hback : ∀ o ∈ g.written, WritesBack o) (hne : g.reached ≠ [])
    (hformat : r.outputFormat = "pem") (h : g.Keeps (toPem detectedFormat g.reached)) :
    g.Fits := by
  have hperm := h.pem rfl
  rw [map_loadObject_toPem hback hne] at hperm
  have hlength := hperm.length_eq
  rw [List.length_map, List.length_map, (sorted_perm g.reached).length_eq] at hlength
  constructor
  case opens => exact h.opens
  case loads => exact reached_eq hlength.ge
  all_goals
    intro hother
    rw [hformat] at hother
    exact absurd hother (by decide)

theorem toDer_eq_ok (h : toDer detectedFormat g.reached = .ok c) :
    ∃ o rest, sorted g.reached = o :: rest ∧ c.format = "der" ∧
      c.data = Base64.b64encode (der o) := by
  unfold toDer at h
  cases hsorted : sorted g.reached with
  | nil =>
    rw [hsorted] at h
    cases h
  | cons o rest =>
    rw [hsorted] at h
    cases h
    exact ⟨o, rest, rfl, rfl, rfl⟩

theorem keeps_of_toDer (hformat : r.outputFormat = "der") (h : g.Fits)
    (hc : toDer detectedFormat g.reached = .ok c) : g.Keeps c := by
  obtain ⟨o, rest, hsorted, hder, hdata⟩ := toDer_eq_ok hc
  have hperm := sorted_perm g.reached
  rw [hsorted, h.loads] at hperm
  constructor
  case opens => exact h.opens
  case der =>
    intro _
    have hlength := hperm.length_eq
    rw [h.der hformat, List.length_cons, Nat.succ_inj, List.length_eq_zero_iff] at hlength
    rw [hlength] at hperm
    exact ⟨o, List.perm_singleton.mp hperm.symm, hdata⟩
  all_goals
    intro hother
    rw [hder] at hother
    exact absurd hother (by decide)

theorem fits_of_toDer (hformat : r.outputFormat = "der")
    (hc : toDer detectedFormat g.reached = .ok c) (h : g.Keeps c) : g.Fits := by
  obtain ⟨o, rest, hsorted, hder, _⟩ := toDer_eq_ok hc
  obtain ⟨o', hobjects, _⟩ := h.der hder
  have hlength := (sorted_perm g.reached).length_eq
  rw [hsorted, List.length_cons] at hlength
  constructor
  case opens => exact h.opens
  case loads =>
    apply reached_eq
    rw [hobjects, List.length_singleton]
    omega
  case der =>
    intro _
    rw [hobjects, List.length_singleton]
  all_goals
    intro hother
    rw [hformat] at hother
    exact absurd hother (by decide)

/-! ### Containers -/

variable (g) in
def caCerts (certs : List X509) : Option (List X509) :=
  if certs ++ g.chainReached = [] then none else some (certs ++ g.chainReached)

omit [ConversionLibrary] in
theorem caCerts_getD (certs : List X509) :
    (g.caCerts certs).getD [] = certs ++ g.chainReached := by
  rw [caCerts]
  split_ifs with hnil
  · exact hnil.symm
  · rfl

theorem toPkcs12_eq {cert : X509} {certs : List X509} {key : PublicKey} {keys : List PublicKey}
    (hcerts : g.certs = cert :: certs) (hkeys : g.keys = key :: keys) :
    toPkcs12 r detectedFormat g.reached =
      if r.pkcs12Password = "" then .error "Password is required for PKCS12 output"
      else
        match ConversionLibrary.serializeKeyAndCertificates "certificate" key cert
            (g.caCerts certs) r.pkcs12Password with
        | none => .error "Conversion failed"
        | some data => .ok
          { format := "pkcs12", data := Base64.b64encode data, filename := "certificate.p12",
            detectedFormat } := by
  unfold toPkcs12
  rw [chainCerts_eq g, ← Given.certs, ← Given.keys, hcerts, hkeys]
  rfl

theorem toPkcs12_eq_ok (h : toPkcs12 r detectedFormat g.reached = .ok c) :
    ∃ cert certs key keys data, g.certs = cert :: certs ∧ g.keys = key :: keys ∧
      ConversionLibrary.serializeKeyAndCertificates "certificate" key cert (g.caCerts certs)
        r.pkcs12Password = some data ∧
      c.format = "pkcs12" ∧ c.data = Base64.b64encode data := by
  cases hcerts : g.certs with
  | nil =>
    unfold toPkcs12 at h
    rw [← Given.certs, hcerts] at h
    cases h
  | cons cert certs =>
    cases hkeys : g.keys with
    | nil =>
      unfold toPkcs12 at h
      rw [← Given.certs, ← Given.keys, hcerts, hkeys] at h
      cases h
    | cons key keys =>
      rw [toPkcs12_eq hcerts hkeys] at h
      by_cases hpassword : r.pkcs12Password = ""
      · rw [if_pos hpassword] at h
        cases h
      · rw [if_neg hpassword] at h
        cases hdata : ConversionLibrary.serializeKeyAndCertificates "certificate" key cert
            (g.caCerts certs) r.pkcs12Password with
        | none =>
          rw [hdata] at h
          cases h
        | some data =>
          rw [hdata] at h
          cases h
          exact ⟨cert, certs, key, keys, data, rfl, rfl, hdata, rfl, rfl⟩

theorem refused_of_toPkcs12 {e : String} (hformat : r.outputFormat = "pkcs12")
    (h : toPkcs12 r detectedFormat g.reached = .error e) : g.Refused := by
  cases hcerts : g.certs with
  | nil => exact .noCertificate (.inl hformat) hcerts
  | cons cert certs =>
    cases hkeys : g.keys with
    | nil => exact .noKey hformat hkeys
    | cons key keys =>
      rw [toPkcs12_eq hcerts hkeys] at h
      by_cases hpassword : r.pkcs12Password = ""
      · exact .noPassword hformat hpassword
      · rw [if_neg hpassword] at h
        cases hdata : ConversionLibrary.serializeKeyAndCertificates "certificate" key cert
            (g.caCerts certs) r.pkcs12Password with
        | none => exact .notWritten hformat cert certs key keys hcerts hkeys hdata
        | some data =>
          rw [hdata] at h
          cases h

omit [ConversionLibrary] in
theorem objects_perm (h : g.Fits) {key : PublicKey} (hkeys : g.keys = [key]) (hcsrs : g.csrs = []) :
    g.objects.Perm (.privateKey key :: g.certs.map .certificate) := by
  have hperm := sorted_perm g.reached
  rw [sorted, ← certs, ← keys, ← csrs, hkeys, hcsrs, h.loads, List.map_nil, List.append_nil]
    at hperm
  exact hperm.symm.trans List.perm_append_comm

theorem keeps_of_toPkcs12 (hcontainers : ContainersReadBack)
    (hformat : r.outputFormat = "pkcs12") (h : g.Fits)
    (hc : toPkcs12 r detectedFormat g.reached = .ok c) : g.Keeps c := by
  obtain ⟨cert, certs, key, keys, data, hcerts, hkeys, hdata, hpkcs12, hencoded⟩ :=
    toPkcs12_eq_ok hc
  obtain ⟨hcsrs, hchain, key', hkeys', hmatch⟩ := h.pkcs12 hformat
  rw [hkeys] at hkeys'
  obtain ⟨rfl, rfl⟩ := List.cons.inj hkeys'
  constructor
  case opens => exact h.opens
  case pkcs12 =>
    intro _
    have hload := hcontainers.pkcs12 _ _ _ _ _ _ hdata
    rw [caCerts_getD, hchain] at hload
    refine ⟨data, key, cert, certs ++ g.chainCerts, hencoded, hload, ?_, ?_⟩
    · exact hmatch cert (by rw [hcerts]; rfl)
    · have hperm := objects_perm h hkeys hcsrs
      rw [hcerts] at hperm
      have hall := (hperm.append_right (g.chainCerts.map .certificate)).symm
      rw [List.cons_append, ← List.map_append, List.cons_append] at hall
      exact hall
  all_goals
    intro hother
    rw [hpkcs12] at hother
    exact absurd hother (by decide)

theorem fits_of_toPkcs12 (hcontainers : ContainersReadBack)
    (hformat : r.outputFormat = "pkcs12")
    (hc : toPkcs12 r detectedFormat g.reached = .ok c) (h : g.Keeps c) : g.Fits := by
  obtain ⟨cert, certs, key, keys, data, hcerts, hkeys, hdata, hpkcs12, hencoded⟩ :=
    toPkcs12_eq_ok hc
  obtain ⟨data', key', cert', certs', hencoded', hload', hmatch, hperm⟩ := h.pkcs12 hpkcs12
  have hsame : data = data' := by
    have hdecode := congrArg Base64.b64decode (hencoded.symm.trans hencoded')
    rw [Base64.b64decode_b64encode, Base64.b64decode_b64encode] at hdecode
    exact Except.ok.inj hdecode
  have hload := hcontainers.pkcs12 _ _ _ _ _ _ hdata
  rw [hsame, hload', caCerts_getD] at hload
  simp only [Option.some.injEq, Prod.mk.injEq] at hload
  obtain ⟨rfl, rfl, rfl⟩ := hload
  have hlength := hperm.length_eq
  have hreached := length_reached (g := g)
  have hle := g.reached_sublist.length_le
  have hchain := g.chainReached_sublist.length_le
  rw [hcerts, hkeys] at hreached
  simp only [List.length_cons, List.length_append, List.length_map] at hlength hreached
  constructor
  case opens => exact h.opens
  case loads => exact reached_eq (by omega)
  case pkcs12 =>
    intro _
    refine ⟨List.length_eq_zero_iff.mp (by omega),
      g.chainReached_sublist.eq_of_length_le (by omega), key', ?_, ?_⟩
    · rw [hkeys, List.length_eq_zero_iff.mp (by omega : keys.length = 0)]
    · intro other hother
      rw [hcerts] at hother
      obtain rfl := Option.some.inj hother
      exact hmatch
  all_goals
    intro hother
    rw [hformat] at hother
    exact absurd hother (by decide)

theorem toPkcs7_eq (h : g.certs ≠ []) : toPkcs7 r detectedFormat g.reached =
    match ConversionLibrary.crl2pkcs7 (String.join
        ((g.certs ++ g.chainReached).map CryptographyLibrary.certificatePem)) with
    | none => .error "Conversion failed"
    | some data => .ok
      { format := "pkcs7", data, filename := "certificates.p7b", detectedFormat } := by
  obtain ⟨cert, certs, hcerts⟩ := List.exists_cons_of_ne_nil h
  unfold toPkcs7
  rewrite [chainCerts_eq g, ← Given.certs, hcerts]
  rfl

theorem toPkcs7_eq_ok (h : toPkcs7 r detectedFormat g.reached = .ok c) :
    ConversionLibrary.crl2pkcs7 (String.join
        ((g.certs ++ g.chainReached).map CryptographyLibrary.certificatePem)) = some c.data ∧
      c.format = "pkcs7" := by
  by_cases hcerts : g.certs = []
  · unfold toPkcs7 at h
    rw [← Given.certs, hcerts] at h
    cases h
  · rw [toPkcs7_eq hcerts] at h
    cases hdata : ConversionLibrary.crl2pkcs7 (String.join
        ((g.certs ++ g.chainReached).map CryptographyLibrary.certificatePem)) with
    | none =>
      rw [hdata] at h
      cases h
    | some data =>
      rw [hdata] at h
      cases h
      exact ⟨rfl, rfl⟩

theorem refused_of_toPkcs7 {e : String} (hformat : r.outputFormat = "pkcs7")
    (h : toPkcs7 r detectedFormat g.reached = .error e) : g.Refused := by
  by_cases hcerts : g.certs = []
  · exact .noCertificate (.inr hformat) hcerts
  · rw [toPkcs7_eq hcerts] at h
    cases hdata : ConversionLibrary.crl2pkcs7 (String.join
        ((g.certs ++ g.chainReached).map CryptographyLibrary.certificatePem)) with
    | none => exact .notJoined hformat hdata
    | some data =>
      rw [hdata] at h
      cases h

theorem keeps_of_toPkcs7 (hcontainers : ContainersReadBack)
    (hformat : r.outputFormat = "pkcs7") (h : g.Fits)
    (hc : toPkcs7 r detectedFormat g.reached = .ok c) : g.Keeps c := by
  obtain ⟨hdata, hpkcs7⟩ := toPkcs7_eq_ok hc
  obtain ⟨hkeys, hcsrs, hchain⟩ := h.pkcs7 hformat
  constructor
  case opens => exact h.opens
  case pkcs7 =>
    intro _
    obtain ⟨found, hfound, hperm⟩ := hcontainers.pkcs7 _ _ hdata
    refine ⟨found, hfound, ?_⟩
    have hobjects := sorted_perm g.reached
    rw [sorted, ← Given.certs, ← Given.keys, ← Given.csrs, hkeys, hcsrs, h.loads, List.map_nil,
      List.map_nil, List.append_nil, List.append_nil] at hobjects
    have hmap := hperm.map CryptoObject.certificate
    rw [List.map_append, hchain] at hmap
    exact hmap.trans (hobjects.append_right _)
  all_goals
    intro hother
    rw [hpkcs7] at hother
    exact absurd hother (by decide)

theorem fits_of_toPkcs7 (hcontainers : ContainersReadBack)
    (hformat : r.outputFormat = "pkcs7")
    (hc : toPkcs7 r detectedFormat g.reached = .ok c) (h : g.Keeps c) : g.Fits := by
  obtain ⟨hdata, hpkcs7⟩ := toPkcs7_eq_ok hc
  obtain ⟨found, hfound, hperm⟩ := h.pkcs7 hpkcs7
  obtain ⟨found', hfound', hperm'⟩ := hcontainers.pkcs7 _ _ hdata
  rw [hfound] at hfound'
  obtain rfl := Option.some.inj hfound'
  have hlength := hperm.length_eq
  have hlength' := hperm'.length_eq
  have hreached := length_reached (g := g)
  have hle := g.reached_sublist.length_le
  have hchain := g.chainReached_sublist.length_le
  simp only [List.length_append, List.length_map] at hlength hlength'
  constructor
  case opens => exact h.opens
  case loads => exact reached_eq (by omega)
  case pkcs7 =>
    intro _
    exact ⟨List.length_eq_zero_iff.mp (by omega), List.length_eq_zero_iff.mp (by omega),
      g.chainReached_sublist.eq_of_length_le (by omega)⟩
  all_goals
    intro hother
    rw [hformat] at hother
    exact absurd hother (by decide)

/-! ### All formats -/

omit [ConversionLibrary] in
theorem reached_ne_nil (h : g.Fits) : g.reached ≠ [] := by
  rw [h.loads]
  intro hnil
  exact input_objects_ne_nil h.opens (List.append_eq_nil_iff.mp hnil).1

theorem convertCertificate_of_fits (hback : ∀ o ∈ g.written, WritesBack o) (h : g.Fits) :
    convertCertificate r = output r g.raw.detectedFormat g.reached := by
  rw [convertCertificate_eq g hback, lacksPassword_eq_false hback h]
  exact (if_neg Bool.false_ne_true).trans (if_neg (reached_ne_nil h))

theorem keeps_of_output (hback : ∀ o ∈ g.written, WritesBack o)
    (hcontainers : ContainersReadBack) (h : g.Fits)
    (hc : output r g.raw.detectedFormat g.reached = .ok c) : g.Keeps c := by
  unfold output at hc
  split_ifs at hc with hpem hder hpkcs12 hpkcs7
  · cases hc
    exact keeps_toPem hback (reached_ne_nil h) h
  · exact keeps_of_toDer hder h hc
  · exact keeps_of_toPkcs12 hcontainers hpkcs12 h hc
  · exact keeps_of_toPkcs7 hcontainers hpkcs7 h hc

theorem fits_of_output (hback : ∀ o ∈ g.written, WritesBack o)
    (hcontainers : ContainersReadBack) (hne : g.reached ≠ [])
    (hc : output r g.raw.detectedFormat g.reached = .ok c) (h : g.Keeps c) : g.Fits := by
  unfold output at hc
  split_ifs at hc with hpem hder hpkcs12 hpkcs7
  · cases hc
    exact fits_of_toPem hback hne hpem h
  · exact fits_of_toDer hder hc h
  · exact fits_of_toPkcs12 hcontainers hpkcs12 hc h
  · exact fits_of_toPkcs7 hcontainers hpkcs7 hc h

theorem refused_of_output {e : String} (hne : g.reached ≠ [])
    (h : output r detectedFormat g.reached = .error e) : g.Refused := by
  unfold output at h
  split_ifs at h with hpem hder hpkcs12 hpkcs7
  · unfold toDer at h
    cases hsorted : sorted g.reached with
    | nil =>
      have hperm := sorted_perm g.reached
      rw [hsorted] at hperm
      exact absurd hperm.nil_eq.symm hne
    | cons o rest =>
      rw [hsorted] at h
      cases h
  · exact refused_of_toPkcs12 hpkcs12 h
  · exact refused_of_toPkcs7 hpkcs7 h
  · exact .format (by simp [hpem, hder, hpkcs12, hpkcs7])

omit g in
theorem output_pkcs12 {loaded : List CryptoObject} (h : r.outputFormat = "pkcs12") :
    output r detectedFormat loaded = toPkcs12 r detectedFormat loaded := by
  rw [output, h, if_neg (by decide), if_neg (by decide), if_pos rfl]

omit g in
theorem output_pkcs7 {loaded : List CryptoObject} (h : r.outputFormat = "pkcs7") :
    output r detectedFormat loaded = toPkcs7 r detectedFormat loaded := by
  rw [output, h, if_neg (by decide), if_neg (by decide), if_neg (by decide), if_pos rfl]

theorem convertCertificate_ne_ok (hback : ∀ o ∈ g.written, WritesBack o) (h : g.Refused) :
    convertCertificate r ≠ .ok c := by
  intro hc
  rw [convertCertificate_eq g hback] at hc
  split_ifs at hc with hlacks hnil
  cases h with
  | password h => exact hlacks h
  | nothing h => exact hnil h
  | noCertificate hformat h =>
    rcases hformat with hformat | hformat
    · rw [output_pkcs12 hformat] at hc
      obtain ⟨cert, certs, _, _, _, hcerts, _⟩ := toPkcs12_eq_ok hc
      exact List.cons_ne_nil _ _ (hcerts.symm.trans h)
    · rw [output_pkcs7 hformat] at hc
      unfold toPkcs7 at hc
      rw [← Given.certs, h] at hc
      cases hc
  | noKey hformat h =>
    rw [output_pkcs12 hformat] at hc
    obtain ⟨_, _, key, keys, _, _, hkeys, _⟩ := toPkcs12_eq_ok hc
    exact List.cons_ne_nil _ _ (hkeys.symm.trans h)
  | noPassword hformat h =>
    rw [output_pkcs12 hformat] at hc
    obtain ⟨_, _, _, _, _, hcerts, hkeys, _⟩ := toPkcs12_eq_ok hc
    rw [toPkcs12_eq hcerts hkeys, if_pos h] at hc
    cases hc
  | notWritten hformat cert certs key keys hcerts hkeys h =>
    rw [output_pkcs12 hformat, toPkcs12_eq hcerts hkeys, caCerts, h] at hc
    split_ifs at hc
  | notJoined hformat h =>
    rw [output_pkcs7 hformat] at hc
    rw [(toPkcs7_eq_ok hc).1] at h
    cases h
  | format h =>
    simp only [List.mem_cons, List.not_mem_nil, or_false, not_or] at h
    rw [output, if_neg h.1, if_neg h.2.1, if_neg h.2.2.1, if_neg h.2.2.2] at hc
    cases hc

end Formats

end Given

end Converter

end Requests

/-! ### A key that needs its password -/

namespace Converter

section Sample

def keyBlock (kind : BlockKind) (digit : Char) (h : digit = 'A' ∨ digit = 'B') : Pem.Block where
  label := kind.label
  body := ['\n', digit, 'A', '=', '=', '\n']
  label_dash := BlockKind.label_dash kind
  body_line := ⟨'\n', _, rfl, by decide⟩
  body_marks := by rcases h with rfl | rfl <;> decide +kernel

def firstBlock : Pem.Block := keyBlock .privateKey 'A' (.inl rfl)

def secondBlock : Pem.Block := keyBlock .privateKey 'B' (.inr rfl)

def protectedBlock : Pem.Block := keyBlock .encryptedPrivateKey 'A' (.inl rfl)

def firstKey : PublicKey := ⟨.rsa 2048, 1⟩

def secondKey : PublicKey := ⟨.rsa 2048, 2⟩

/-- Two keys with a text each; the second one is also in a text with a password. -/
@[reducible] def twoKeys : CryptographyLibrary where
  loadPemX509Certificate _ := none
  loadPemX509Csr _ := none
  privateKey text :=
    if startsWith text (String.ofList firstBlock.text) then .plain firstKey
    else if startsWith text (String.ofList secondBlock.text) then .plain secondKey
    else .encrypted secondKey "secret"
  loadPemPkcs7Certificates _ := none
  loadKeyAndCertificates _ _ := none
  loadDerX509Certificate _ := none
  loadDerPrivateKey _ _ := none
  loadDerPkcs7Certificates _ := none
  certificatePem _ := ""
  privateKeyPem key :=
    String.ofList ((if key = firstKey then firstBlock else secondBlock).text ++ ['\n'])
  curveSize _ := 0
  edwards _ := none

@[reducible] def noContainers : ConversionLibrary where
  csrPem _ := ""
  certificateDer _ := []
  privateKeyDer _ := []
  csrDer _ := []
  serializeKeyAndCertificates _ _ _ _ _ := none
  crl2pkcs7 _ := none

theorem firstKey_writesBack :
    let _ := twoKeys
    let _ := noContainers
    WritesBack (.privateKey firstKey) := by
  refine ⟨.privateKey, firstBlock, rfl, ?_, ?_, ?_, ?_⟩ <;> decide +kernel

theorem secondKey_writesBack :
    let _ := twoKeys
    let _ := noContainers
    WritesBack (.privateKey secondKey) := by
  refine ⟨.privateKey, secondBlock, rfl, ?_, ?_, ?_, ?_⟩ <;> decide +kernel

theorem noContainers_readBack :
    let _ := twoKeys
    let _ := noContainers
    ContainersReadBack :=
  @ContainersReadBack.mk twoKeys noContainers (fun _ _ _ _ _ _ h => nomatch h)
    fun _ _ h => nomatch h

end Sample

end Converter

end CaManager
