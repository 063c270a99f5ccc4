import CaManager.Tools.Conversion

/-!
# What the converter loads

An input is a text of blocks or a protected file. The parser finds the blocks whose bodies are data
alone, and the objects of a file that opens with its password. Of these, the objects load whose
texts need no password.
-/

namespace CaManager

open Library

section Blocks

theorem Converter.Request.givenPassword_ne (r : Converter.Request) : r.givenPassword ≠ some "" := by
  rw [Converter.Request.givenPassword]
  split_ifs with hempty
  · exact fun h => nomatch h
  · exact fun h => hempty (Option.some.inj h)

theorem untilFailure_of_isSome {α : Type} {steps : List (Option α)}
    (h : ∀ s ∈ steps, s.isSome = true) :
    SmartParser.untilFailure steps = (steps.filterMap id, true) := by
  induction steps with
  | nil => rfl
  | cons s steps ih =>
    obtain ⟨a, rfl⟩ := Option.isSome_iff_exists.mp (h s List.mem_cons_self)
    rw [SmartParser.untilFailure, ih fun s hs => h s (List.mem_cons_of_mem _ hs)]
    rfl

theorem filterMap_sublist {α β : Type} {f g : α → Option β} {l : List α}
    (h : ∀ a ∈ l, ∀ b, f a = some b → g a = some b) : (l.filterMap f).Sublist (l.filterMap g) := by
  induction l with
  | nil => exact List.Sublist.refl _
  | cons a l ih =>
    have hrest := ih fun a ha => h a (List.mem_cons_of_mem _ ha)
    cases hf : f a with
    | none =>
      rw [List.filterMap_cons_none hf]
      exact hrest.trans (List.Sublist.filterMap g (List.sublist_cons_self a l))
    | some b =>
      rw [List.filterMap_cons_some hf, List.filterMap_cons_some (h a List.mem_cons_self b hf)]
      exact hrest.cons_cons b

theorem KeyText.publicKey_none (text : KeyText) : text.publicKey none = text.load none := by
  rw [KeyText.publicKey, Option.or_self]

variable [CryptographyLibrary]

def BlockKind.load (kind : BlockKind) (pemBlock : String) (password : Option String) :
    Option CryptoObject :=
  match kind with
  | .certificate => (CryptographyLibrary.loadPemX509Certificate pemBlock).map .certificate
  | .certificateRequest | .newCertificateRequest =>
    (CryptographyLibrary.loadPemX509Csr pemBlock).map .csr
  | _ => ((CryptographyLibrary.privateKey pemBlock).publicKey password).map .privateKey

theorem BlockKind.load_of_none {kind : BlockKind} {pemBlock : String} {o : CryptoObject}
    (h : kind.load pemBlock none = some o) (password : Option String) :
    kind.load pemBlock password = some o := by
  revert h
  unfold load
  cases kind
  all_goals first
    | exact id
    | intro h
      obtain ⟨key, hkey, rfl⟩ := Option.map_eq_some_iff.mp h
      rw [KeyText.publicKey_none] at hkey
      rw [KeyText.publicKey_of_load hkey password, Option.map_some]

variable [X509Library] [KeyIdLibrary]

namespace KnownBlock

def opened (password : Option String) (b : KnownBlock) : Option CryptoObject :=
  b.kind.load b.text password

/-- The object that is loaded of the block: its body is data alone, and needs no password. -/
def reached (b : KnownBlock) : Option CryptoObject :=
  if b.block.plain then b.opened none else none

end KnownBlock

def CryptoObject.Described : CryptoObject → Prop
  | certificate cert => (SmartParser.parseX509Cert cert).isSome = true
  | privateKey _ => True
  | csr request => (SmartParser.describeCsr request).isSome = true

namespace BlockKind

variable {kind : BlockKind} {pemBlock : String} {password : Option String} {o : CryptoObject}

theorem isSome_contents_of_load (h : kind.load pemBlock none = some o) (hd : o.Described) :
    (kind.contents pemBlock none).isSome = true := by
  revert h
  unfold load contents
  cases kind
  case certificate =>
    intro h
    obtain ⟨cert, hcert, rfl⟩ := Option.map_eq_some_iff.mp h
    dsimp only
    rw [hcert, Option.bind_some, Option.isSome_map]
    exact hd
  case certificateRequest | newCertificateRequest =>
    intro h
    obtain ⟨request, hrequest, rfl⟩ := Option.map_eq_some_iff.mp h
    dsimp only
    rw [hrequest, Option.bind_some]
    exact hd
  all_goals
    cases CryptographyLibrary.privateKey pemBlock
    case unreadable =>
      intro h
      cases h
    all_goals exact fun _ => rfl

theorem described_of_load (h : kind.load pemBlock password = some o)
    (hr : (kind.contents pemBlock none).isSome = true) : o.Described := by
  revert h hr
  unfold load contents
  cases kind
  case certificate =>
    intro h hr
    obtain ⟨cert, hcert, rfl⟩ := Option.map_eq_some_iff.mp h
    dsimp only at hr
    rw [hcert, Option.bind_some, Option.isSome_map] at hr
    exact hr
  case certificateRequest | newCertificateRequest =>
    intro h hr
    obtain ⟨request, hrequest, rfl⟩ := Option.map_eq_some_iff.mp h
    dsimp only at hr
    rw [hrequest, Option.bind_some] at hr
    exact hr
  all_goals
    intro h _
    obtain ⟨key, _, rfl⟩ := Option.map_eq_some_iff.mp h
    trivial

end BlockKind

namespace KnownBlock

variable {b : KnownBlock} {password : Option String} {o : CryptoObject}

theorem described_of_opened (h : b.opened password = some o) : o.Described :=
  BlockKind.described_of_load h b.readable

theorem opened_of_reached (h : b.reached = some o) (password : Option String) :
    b.opened password = some o := by
  rw [reached] at h
  split_ifs at h
  exact BlockKind.load_of_none h password

end KnownBlock

/-! ### Inputs -/

/-- A file in the PKCS #12 format, which is no text and has no other format. The parser can describe
its certificates. -/
structure Pfx where
  data : Bytes
  passphrase : Option String
  certificate : Option X509
  privateKey : Option PublicKey
  additionalCerts : List X509
  binary : decodeText data = none
  passphrase_ne : passphrase ≠ some ""
  opens : ∀ password, CryptographyLibrary.loadKeyAndCertificates data password =
    if password = passphrase then some (privateKey, certificate, additionalCerts) else none
  described : ∀ cert ∈ certificate.toList ++ additionalCerts,
    (SmartParser.parseX509Cert cert).isSome = true
  not_certificate : CryptographyLibrary.loadDerX509Certificate data = none
  not_privateKey : ∀ password, CryptographyLibrary.loadDerPrivateKey data password = none
  not_pkcs7 : CryptographyLibrary.loadDerPkcs7Certificates data = none
  nonempty : certificate.toList ++ additionalCerts = [] → privateKey ≠ none

def Pfx.members (f : Pfx) : List CryptoObject :=
  f.certificate.toList.map .certificate ++ f.privateKey.toList.map .privateKey ++
    f.additionalCerts.map .certificate

inductive ConverterInput
  | bundle (t : PemBundle) (nonempty : t.blocks ≠ [])
  | pfx (f : Pfx)

namespace ConverterInput

open Converter

def In (raw : RawInput) : ConverterInput → Prop
  | bundle t _ => raw.decoded = some t.text
  | pfx f => raw = .bytes f.data

def Opens (password : Option String) : ConverterInput → Prop
  | bundle t _ => ∀ b ∈ t.blocks, (b.opened password).isSome = true
  | pfx f => password = f.passphrase ∨ f.passphrase = none

def objects (password : Option String) : ConverterInput → List CryptoObject
  | bundle t _ => t.blocks.filterMap (KnownBlock.opened password)
  | pfx f => if password = f.passphrase ∨ f.passphrase = none then f.members else []

def reached (password : Option String) : ConverterInput → List CryptoObject
  | bundle t _ => t.blocks.filterMap KnownBlock.reached
  | pfx f => if password = f.passphrase then f.members else []

/-- The objects that are loaded when the input is read again if nothing was found. -/
def reachedAgain (password : Option String) (i : ConverterInput) : List CryptoObject :=
  if i.reached password = [] then i.reached none else i.reached password

theorem reached_sublist (i : ConverterInput) (password : Option String) :
    (i.reached password).Sublist (i.objects password) := by
  cases i with
  | bundle t hne => exact filterMap_sublist fun b _ o ho => b.opened_of_reached ho password
  | pfx f =>
    rw [reached, objects]
    split_ifs with h h'
    · exact List.Sublist.refl _
    · exact absurd (.inl h) h'
    · exact List.nil_sublist _
    · exact List.Sublist.refl _

theorem reached_none_sublist (i : ConverterInput) (password : Option String) :
    (i.reached none).Sublist (i.objects password) := by
  cases i with
  | bundle t hne => exact filterMap_sublist fun b _ o ho => b.opened_of_reached ho password
  | pfx f =>
    rw [reached, objects]
    split_ifs with h h'
    · exact List.Sublist.refl _
    · exact absurd (.inr h.symm) h'
    · exact List.nil_sublist _
    · exact List.Sublist.refl _

theorem reachedAgain_sublist (i : ConverterInput) (password : Option String) :
    (i.reachedAgain password).Sublist (i.objects password) := by
  rw [reachedAgain]
  split_ifs
  · exact i.reached_none_sublist password
  · exact i.reached_sublist password

theorem described_of_mem (i : ConverterInput) {password : Option String} {o : CryptoObject}
    (h : o ∈ i.objects password) : o.Described := by
  cases i with
  | bundle t hne =>
    obtain ⟨b, _, hb⟩ := List.mem_filterMap.mp h
    exact b.described_of_opened hb
  | pfx f =>
    rw [objects] at h
    split_ifs at h
    · rcases List.mem_append.mp h with h | h
      · rcases List.mem_append.mp h with h | h
        · obtain ⟨cert, hcert, rfl⟩ := List.mem_map.mp h
          exact f.described cert (List.mem_append_left _ hcert)
        · obtain ⟨key, _, rfl⟩ := List.mem_map.mp h
          trivial
      · obtain ⟨cert, hcert, rfl⟩ := List.mem_map.mp h
        exact f.described cert (List.mem_append_right _ hcert)
    · cases h

/-! ### What is loaded -/

omit [X509Library] [KeyIdLibrary] in
theorem loadObject_describeKey (pemBlock : String) (i : ℕ) (password : Option String) :
    loadObject ⟨pemBlock, i, SmartParser.describeKey password pemBlock⟩ =
      ((CryptographyLibrary.privateKey pemBlock).load none).map .privateKey := by
  rw [loadObject, SmartParser.describeKey]
  cases KeyText.load (SmartParser.givenPassword password)
    (CryptographyLibrary.privateKey pemBlock) <;> rfl

theorem loadObject_parsed (b : KnownBlock) (i : ℕ) (password : Option String) :
    loadObject ⟨b.text, i, PemBundle.parsed password b⟩ = b.opened none := by
  have hcontents := b.contents_eq password
  revert hcontents
  unfold PemBundle.parsed BlockKind.contents loadObject KnownBlock.opened BlockKind.load
  cases b.kind
  case certificate =>
    intro hcontents
    obtain ⟨o, ho, hdescription⟩ := Option.map_eq_some_iff.mp hcontents
    obtain ⟨cert, _, hparse⟩ := Option.bind_eq_some_iff.mp ho
    obtain ⟨d, _, rfl⟩ := Option.map_eq_some_iff.mp hparse
    dsimp only [BlockKind.isKey]
    rw [← hdescription]
    rfl
  case certificateRequest | newCertificateRequest =>
    intro hcontents
    obtain ⟨request, _, hdescribe⟩ := Option.bind_eq_some_iff.mp hcontents
    obtain ⟨d, _, hd⟩ := Option.map_eq_some_iff.mp hdescribe
    dsimp only [BlockKind.isKey]
    rw [← hd]
    rfl
  all_goals
    intro _
    rw [KeyText.publicKey_none]
    exact loadObject_describeKey b.text i password

theorem map_found (password : Option String) (bs : List KnownBlock) :
    (PemBundle.found password bs).map loadObject = bs.map (KnownBlock.opened none) := by
  rw [PemBundle.found, List.map_map]
  have hload : (loadObject ∘ fun p : KnownBlock × ℕ =>
      (⟨p.1.text, p.2, PemBundle.parsed password p.1⟩ : DetectedObject)) =
      KnownBlock.opened none ∘ Prod.fst :=
    funext fun p => loadObject_parsed p.1 p.2 password
  calc _ = (bs.zipIdx.map Prod.fst).map (KnownBlock.opened none) := by
        rw [List.map_map, ← hload]
    _ = bs.map (KnownBlock.opened none) := by rw [List.zipIdx_map_fst 0 bs]

theorem filterMap_found (password : Option String) (bs : List KnownBlock) :
    (PemBundle.found password bs).filterMap loadObject =
      bs.filterMap (KnownBlock.opened none) := by
  have hids := congrArg (List.filterMap id) (map_found password bs)
  rwa [List.filterMap_map, List.filterMap_map] at hids

theorem filterMap_plain (bs : List KnownBlock) :
    (bs.filter fun b => b.block.plain).filterMap (KnownBlock.opened none) =
      bs.filterMap KnownBlock.reached := by
  rw [List.filterMap_filter]
  rfl

theorem parse_bundle {t : PemBundle} {raw : RawInput} (hraw : raw.decoded = some t.text)
    (hne : t.blocks ≠ []) (password : Option String) :
    parse raw password = PemBundle.found password (t.blocks.filter fun b => b.block.plain) := by
  have hparse := PemBundle.parse_text t password
  rw [PemBundle.binaryObjects_text hne, Option.getD_none] at hparse
  cases raw with
  | text content =>
    cases hraw
    exact hparse
  | bytes data =>
    rw [parse, show decodeText data = some t.text from hraw]
    exact hparse

end ConverterInput

/-! ### Files -/

namespace Converter

omit [X509Library] [KeyIdLibrary] in
theorem filterMap_indexed (objects : List DetectedObject) :
    (SmartParser.indexed objects).filterMap loadObject = objects.filterMap loadObject := by
  rw [SmartParser.indexed, List.filterMap_map]
  have hfst := List.zipIdx_map_fst 0 objects
  calc _ = (objects.zipIdx.map Prod.fst).filterMap loadObject := by
        rw [List.filterMap_map]
        rfl
    _ = objects.filterMap loadObject := by rw [hfst]

variable [ConversionLibrary]

/-- The library writes an object as a block of data, and reads it from its text and its block. -/
def WritesBack (o : CryptoObject) : Prop :=
  ∃ (kind : BlockKind) (block : Pem.Block), block.label = kind.label ∧ block.plain = true ∧
    pem o = String.ofList (block.text ++ ['\n']) ∧
      kind.load (pem o) none = some o ∧ kind.load (String.ofList block.text) none = some o

theorem loadObject_cert {cert : X509} (h : WritesBack (.certificate cert)) {o : DetectedObject}
    (ho : SmartParser.parseX509Cert cert = some o) : loadObject o = some (.certificate cert) := by
  obtain ⟨d, _, rfl⟩ := Option.map_eq_some_iff.mp ho
  obtain ⟨kind, _, _, _, _, hload, _⟩ := h
  rw [loadObject]
  revert hload
  unfold BlockKind.load
  cases kind
  case certificate => exact id
  case certificateRequest | newCertificateRequest =>
    intro hload
    obtain ⟨_, _, hwrong⟩ := Option.map_eq_some_iff.mp hload
    cases hwrong
  all_goals
    intro hload
    obtain ⟨_, _, hwrong⟩ := Option.map_eq_some_iff.mp hload
    cases hwrong

omit [X509Library] [KeyIdLibrary] in
theorem loadObject_key {key : PublicKey} (h : WritesBack (.privateKey key)) :
    loadObject (SmartParser.parsePrivateKey key) = some (.privateKey key) := by
  obtain ⟨kind, _, _, _, _, hload, _⟩ := h
  rw [loadObject, SmartParser.parsePrivateKey]
  revert hload
  unfold BlockKind.load
  rw [KeyText.publicKey_none]
  cases kind
  case certificate | certificateRequest | newCertificateRequest =>
    intro hload
    obtain ⟨_, _, hwrong⟩ := Option.map_eq_some_iff.mp hload
    cases hwrong
  all_goals exact id

end Converter

namespace Pfx

open Converter

variable {f : Pfx} {password : Option String}

theorem mem_members {cert : X509} (h : cert ∈ f.certificate.toList ++ f.additionalCerts) :
    .certificate cert ∈ f.members := by
  rw [members, List.mem_append, List.mem_append]
  rcases List.mem_append.mp h with h | h
  · exact .inl (.inl (List.mem_map_of_mem h))
  · exact .inr (List.mem_map_of_mem h)

theorem not_empty (f : Pfx) (hcertificate : f.certificate.toList = [])
    (hkey : f.privateKey.toList = []) (hadditional : f.additionalCerts = []) : False := by
  refine f.nonempty (by rw [hcertificate, hadditional]; rfl) ?_
  exact Option.toList_eq_nil_iff.mp hkey

theorem members_ne_nil (f : Pfx) : f.members ≠ [] := by
  intro hnone
  rw [members, List.append_eq_nil_iff, List.append_eq_nil_iff, List.map_eq_nil_iff,
    List.map_eq_nil_iff, List.map_eq_nil_iff] at hnone
  exact f.not_empty hnone.1.1 hnone.1.2 hnone.2

def steps (f : Pfx) : List (Option DetectedObject) :=
  f.certificate.toList.map SmartParser.parseX509Cert ++
    (f.privateKey.toList.map fun key => some (SmartParser.parsePrivateKey key)) ++
    f.additionalCerts.map SmartParser.parseX509Cert

theorem isSome_of_mem_steps {s : Option DetectedObject} (h : s ∈ f.steps) : s.isSome = true := by
  rcases List.mem_append.mp h with h | h
  · rcases List.mem_append.mp h with h | h
    · obtain ⟨cert, hcert, rfl⟩ := List.mem_map.mp h
      exact f.described cert (List.mem_append_left _ hcert)
    · obtain ⟨key, _, rfl⟩ := List.mem_map.mp h
      rfl
  · obtain ⟨cert, hcert, rfl⟩ := List.mem_map.mp h
    exact f.described cert (List.mem_append_right _ hcert)

theorem steps_ne_nil (f : Pfx) : f.steps.filterMap id ≠ [] := by
  intro hnil
  have hnone : f.steps = [] := by
    refine List.eq_nil_iff_forall_not_mem.mpr fun s hs => ?_
    have hs' : s = none := List.filterMap_eq_nil_iff.mp hnil s hs
    have hsome := isSome_of_mem_steps hs
    rw [hs'] at hsome
    cases hsome
  rw [steps, List.append_eq_nil_iff, List.append_eq_nil_iff, List.map_eq_nil_iff,
    List.map_eq_nil_iff, List.map_eq_nil_iff] at hnone
  exact f.not_empty hnone.1.1 hnone.1.2 hnone.2

variable [ConversionLibrary]

theorem filterMap_certs (certs : List X509)
    (hback : ∀ cert ∈ certs, WritesBack (.certificate cert))
    (hdescribed : ∀ cert ∈ certs, (SmartParser.parseX509Cert cert).isSome = true) :
    (certs.map SmartParser.parseX509Cert).filterMap (fun s => s.bind loadObject) =
      certs.map .certificate := by
  rw [List.filterMap_map]
  refine SmartParser.filterMap_eq_map fun cert hcert => ?_
  obtain ⟨o, ho⟩ := Option.isSome_iff_exists.mp (hdescribed cert hcert)
  rw [Function.comp_apply, ho, Option.bind_some]
  exact loadObject_cert (hback cert hcert) ho

theorem filterMap_steps (hback : ∀ o ∈ f.members, WritesBack o) :
    (f.steps.filterMap id).filterMap loadObject = f.members := by
  rw [List.filterMap_filterMap, steps, List.filterMap_append, List.filterMap_append, members]
  have hcerts := filterMap_certs f.certificate.toList
    (fun cert hcert => hback _ (mem_members (List.mem_append_left _ hcert)))
    (fun cert hcert => f.described cert (List.mem_append_left _ hcert))
  have hothers := filterMap_certs f.additionalCerts
    (fun cert hcert => hback _ (mem_members (List.mem_append_right _ hcert)))
    (fun cert hcert => f.described cert (List.mem_append_right _ hcert))
  have hkeys : (f.privateKey.toList.map fun key => some (SmartParser.parsePrivateKey key)).filterMap
      (fun s => s.bind loadObject) = f.privateKey.toList.map .privateKey := by
    rw [List.filterMap_map]
    refine SmartParser.filterMap_eq_map fun key hkey => ?_
    exact loadObject_key (hback _ (by simp [members, Option.mem_toList.mp hkey]))
  exact congrArg₂ _ (congrArg₂ _ hcerts hkeys) hothers

omit [ConversionLibrary] in
theorem parse_file (hpassword : password ≠ some "") : parse (.bytes f.data) password =
    if password = f.passphrase then SmartParser.indexed (f.steps.filterMap id) else [] := by
  have hgiven : SmartParser.givenPassword password = password := by
    cases password with
    | none => rfl
    | some p =>
      have hp : p ≠ "" := fun hempty => hpassword (hempty ▸ rfl)
      exact Option.filter_eq_some_iff.mpr ⟨rfl, decide_eq_true hp⟩
  have hne : SmartParser.indexed (f.steps.filterMap id) ≠ [] := by
    intro hnil
    have hlength := congrArg List.length hnil
    rw [SmartParser.indexed, List.length_map, List.length_zipIdx] at hlength
    exact f.steps_ne_nil (List.length_eq_zero_iff.mp hlength)
  have hobjects : SmartParser.pkcs12Objects f.data password =
      if password = f.passphrase then (SmartParser.indexed (f.steps.filterMap id), true)
      else ([], false) := by
    rw [SmartParser.pkcs12Objects, hgiven, f.opens]
    split_ifs with hopens
    · have hsteps := untilFailure_of_isSome fun s hs => isSome_of_mem_steps (f := f) hs
      dsimp only
      rw [← steps, hsteps]
    · rfl
  rw [parse, f.binary]
  dsimp only
  rw [SmartParser.parseBinary, hobjects]
  split_ifs with hopens
  · exact if_pos ⟨rfl, hne⟩
  · rw [SmartParser.parseDerCert, SmartParser.parseDerKey, f.not_certificate, f.not_privateKey,
      f.not_pkcs7]
    rfl

end Pfx

namespace ConverterInput

open Converter

variable {i : ConverterInput} {raw : RawInput} {password : Option String}

variable [ConversionLibrary]

theorem loads (hin : i.In raw) (hpassword : password ≠ some "")
    (hback : ∀ o ∈ i.reached password, WritesBack o) :
    (parse raw password).filterMap loadObject = i.reached password := by
  cases i with
  | bundle t hne => rw [parse_bundle hin hne, filterMap_found, filterMap_plain, reached]
  | pfx f =>
    rw [show raw = .bytes f.data from hin, Pfx.parse_file hpassword]
    rw [reached] at hback ⊢
    split_ifs with hopens
    · rw [if_pos hopens] at hback
      rw [filterMap_indexed]
      exact Pfx.filterMap_steps hback
    · rfl

omit [ConversionLibrary] in
theorem reached_none_of_nil (hin : i.In raw) (hpassword : password ≠ some "")
    (hfound : parse raw password ≠ []) (h : i.reached password = []) : i.reached none = [] := by
  cases i with
  | bundle t hne => exact h
  | pfx f =>
    rw [show raw = .bytes f.data from hin, Pfx.parse_file hpassword] at hfound
    rw [reached] at h ⊢
    by_cases hopens : password = f.passphrase
    · rw [if_pos hopens] at h
      rw [h, ite_self]
    · rw [if_neg hopens] at hfound
      exact absurd rfl hfound

theorem loads_inputObjects {r : Converter.Request} (hin : i.In raw)
    (hback : ∀ o ∈ i.objects r.givenPassword, WritesBack o) :
    (inputObjects r raw).filterMap loadObject = i.reachedAgain r.givenPassword := by
  have hne := r.givenPassword_ne
  have hfirst := loads hin hne fun o ho => hback o ((i.reached_sublist _).subset ho)
  have hagain : (parse raw none).filterMap loadObject = i.reached none :=
    loads hin (fun h => nomatch h) fun o ho => hback o ((i.reached_none_sublist _).subset ho)
  rw [inputObjects, reachedAgain]
  by_cases hnil : parse raw r.givenPassword = []
  · have hreached : i.reached r.givenPassword = [] := by rw [← hfirst, hnil]; rfl
    rw [if_pos hreached]
    split_ifs with hboth
    · exact hagain
    · have hnone : r.givenPassword = none := by
        by_contra hsome
        exact hboth ⟨hnil, hsome⟩
      rw [hnone] at hfirst ⊢
      exact hfirst
  · rw [if_neg fun hboth => hnil hboth.1, hfirst]
    split_ifs with hreached
    · rw [hreached, reached_none_of_nil hin hne hnil hreached]
    · rfl

omit [ConversionLibrary] in
theorem text_ne_empty {content : String} (h : i.In (.text content)) : content ≠ "" := by
  cases i with
  | pfx f => cases h
  | bundle t hne =>
    obtain rfl := Option.some.inj h
    intro hempty
    have hnil := congrArg String.toList hempty
    rw [PemBundle.text, String.toList_ofList, String.toList_empty] at hnil
    cases hparts : t.parts with
    | nil => exact hne (by rw [PemBundle.blocks, hparts]; rfl)
    | cons part parts =>
      rw [hparts, Pem.render, List.append_eq_nil_iff, List.append_eq_nil_iff] at hnil
      exact List.cons_ne_nil _ _ hnil.2.1

omit [ConversionLibrary] in
theorem content_ne_empty {content : String} (hin : i.In raw) (h : readInput content = .ok raw) :
    content ≠ "" := by
  rintro rfl
  have htext : raw = .text "" := (Except.ok.inj h).symm
  exact text_ne_empty (htext ▸ hin) rfl

end ConverterInput

end Blocks

end CaManager
