import CaManager.SmartImport.Parser
import CaManager.Store.Linking

/-!
# What is found in a text of blocks

A text of certificates, private keys and requests gives one object for each block, in their order,
if the body of every block is data alone. A key in the older format that is encrypted has lines in
front of its data that say so, and is not found. A key that is not encrypted cannot be loaded with a
password that came along for others, and is then taken for an encrypted one; the data of a key may
spell the word that is looked for. A text without any block may be base64 of binary data.
-/

namespace CaManager

open Library Pattern

inductive BlockKind
  | certificate
  | privateKey
  | rsaPrivateKey
  | ecPrivateKey
  | encryptedPrivateKey
  | certificateRequest
  | newCertificateRequest
  deriving Repr, DecidableEq

namespace BlockKind

open SmartParser

def words : BlockKind → List (List Char)
  | certificate => [certificateWord]
  | privateKey => [privateWord, keyWord]
  | rsaPrivateKey => [rsaWord, privateWord, keyWord]
  | ecPrivateKey => [ecWord, privateWord, keyWord]
  | encryptedPrivateKey => [encryptedWord, privateWord, keyWord]
  | certificateRequest => [certificateWord, requestWord]
  | newCertificateRequest => [newWord, certificateWord, requestWord]

def label (kind : BlockKind) : List Char := [' '].intercalate kind.words

def isKey : BlockKind → Bool
  | privateKey => true
  | rsaPrivateKey => true
  | ecPrivateKey => true
  | encryptedPrivateKey => true
  | _ => false

end BlockKind

section Contents

variable [CryptographyLibrary]

/-- What a private key is: its algorithm and size, as far as the password opens it. -/
def KeyText.contents (password : Option String) : KeyText → Option Description
  | .plain key => some (.privateKey false (SmartParser.getKeyInfo key))
  | .encrypted key passphrase =>
    some (.privateKey true (if password = some passphrase then SmartParser.getKeyInfo key
      else ⟨"unknown (encrypted)", 0⟩))
  | .unreadable => none

variable [X509Library] [KeyIdLibrary]

def BlockKind.contents (kind : BlockKind) (pemBlock : String) (password : Option String) :
    Option Description :=
  match kind with
  | .certificate =>
    ((CryptographyLibrary.loadPemX509Certificate pemBlock).bind SmartParser.parseX509Cert).map
      DetectedObject.description
  | .certificateRequest | .newCertificateRequest =>
    (CryptographyLibrary.loadPemX509Csr pemBlock).bind SmartParser.describeCsr
  | _ => (CryptographyLibrary.privateKey pemBlock).contents (SmartParser.givenPassword password)

end Contents

/-- A well-formed block of a known kind: the library reads it, a key at least with its password. -/
structure KnownBlock [CryptographyLibrary] [X509Library] [KeyIdLibrary] where
  kind : BlockKind
  block : Pem.Block
  label : block.label = kind.label
  readable : (kind.contents (String.ofList block.text) none).isSome = true

/-- A text of well-formed blocks, with texts around them that have no words of a block. -/
structure PemBundle [CryptographyLibrary] [X509Library] [KeyIdLibrary] where
  gap : List Char
  parts : List (KnownBlock × List Char)
  gap_marks : Pem.Unmarked gap
  parts_marks : ∀ part ∈ parts, Pem.Unmarked part.2

section Bundles

variable [CryptographyLibrary] [X509Library] [KeyIdLibrary]

namespace KnownBlock

def text (b : KnownBlock) : String := String.ofList b.block.text

theorem isSome_contents (b : KnownBlock) (password : Option String) :
    (b.kind.contents b.text password).isSome = true := by
  have hreadable := b.readable
  revert hreadable
  unfold BlockKind.contents text
  cases b.kind
  all_goals first
    | exact id
    | cases CryptographyLibrary.privateKey (String.ofList b.block.text) <;> exact id

def contents (b : KnownBlock) (password : Option String) : Description :=
  (b.kind.contents b.text password).get (b.isSome_contents password)

theorem contents_eq (b : KnownBlock) (password : Option String) :
    b.kind.contents b.text password = some (b.contents password) :=
  (Option.some_get _).symm

end KnownBlock

namespace PemBundle

def text (t : PemBundle) : String := String.ofList (Pem.render KnownBlock.block t.gap t.parts)

def blocks (t : PemBundle) : List KnownBlock := t.parts.map Prod.fst

def objects (t : PemBundle) (password : Option String) : List DetectedObject :=
  t.blocks.zipIdx.map fun (b, i) => ⟨b.text, i, b.contents password⟩

end PemBundle

/-- The object of a key says of it what it is: no password came along if it needs none, and the
word is in its text exactly if it is encrypted. -/
def KeyTold (password : Option String) (pemBlock : String) : Prop :=
  match CryptographyLibrary.privateKey pemBlock with
  | .plain _ => SmartParser.givenPassword password = none ∧ occursIn "ENCRYPTED" pemBlock = false
  | .encrypted _ passphrase =>
    SmartParser.givenPassword password = some passphrase → occursIn "ENCRYPTED" pemBlock = true
  | .unreadable => True

/-- The bodies are data alone, the keys are described as what they are, and a text without blocks
is not taken for binary data with objects in it. -/
structure PemBundle.Recognized (t : PemBundle) (password : Option String) : Prop where
  plain : ∀ b ∈ t.blocks, b.block.plain = true
  keys : ∀ b ∈ t.blocks, b.kind.isKey = true → KeyTold password b.text
  alone : t.blocks = [] → ∀ objects,
    SmartParser.binaryObjects t.text password = some objects → objects = []

end Bundles

/-! ### The patterns and the kinds -/

namespace BlockKind

theorem label_dash (kind : BlockKind) : '-' ∉ kind.label := by
  cases kind <;> decide

def TakesKinds (label : Pattern) (kinds : List BlockKind) : Prop :=
  Pem.IsLabel label ∧ ∀ kind : BlockKind,
    takes (Pem.opening label) (' ' :: kind.label) = decide (kind ∈ kinds)

theorem isLabel_exactly {word : List Char} (h : '-' ∉ word) : Pem.IsLabel (exactly word) := by
  apply noDigits_literal
  intro c hc d hd
  refine decide_eq_false ?_
  rintro rfl
  exact h (of_decide_eq_true hd ▸ hc)

theorem isLabel_label {words : List (List Char)} (h : ∀ word ∈ words, '-' ∉ word) :
    Pem.IsLabel (SmartParser.label words) := by
  induction words with
  | nil => exact noDigits_empty
  | cons word words ih =>
    have hword := isLabel_exactly (h word List.mem_cons_self)
    cases words with
    | nil => exact hword
    | cons word' words =>
      have hrest := ih fun w hw => h w (List.mem_cons_of_mem word hw)
      exact hword.seq (Pem.isLabel_opening hrest)

section Tables

open SmartParser

theorem takesKinds_certificate : TakesKinds (SmartParser.label [certificateWord]) [certificate] :=
  ⟨isLabel_label (by decide), fun kind => by cases kind <;> decide⟩

theorem takesKinds_rsa : TakesKinds rsaLabel [rsaPrivateKey, privateKey] := by
  refine ⟨NoDigits.seq (NoDigits.optional ?_) (isLabel_label (by decide)), ?_⟩
  · refine NoDigits.seq (isLabel_exactly (by decide)) (NoDigits.seq ?_ ?_)
    · exact noDigits_one fun c hc => decide_eq_false (Pem.isSpace_ne_dash hc).1
    · exact noDigits_many fun c hc => decide_eq_false (Pem.isSpace_ne_dash hc).1
  · intro kind
    cases kind <;> decide

theorem takesKinds_ec :
    TakesKinds (SmartParser.label [ecWord, privateWord, keyWord]) [ecPrivateKey] :=
  ⟨isLabel_label (by decide), fun kind => by cases kind <;> decide⟩

theorem takesKinds_encrypted :
    TakesKinds (SmartParser.label [encryptedWord, privateWord, keyWord]) [encryptedPrivateKey] :=
  ⟨isLabel_label (by decide), fun kind => by cases kind <;> decide⟩

theorem takesKinds_private :
    TakesKinds (SmartParser.label [privateWord, keyWord]) [privateKey] :=
  ⟨isLabel_label (by decide), fun kind => by cases kind <;> decide⟩

theorem takesKinds_request :
    TakesKinds (SmartParser.label [certificateWord, requestWord]) [certificateRequest] :=
  ⟨isLabel_label (by decide), fun kind => by cases kind <;> decide⟩

theorem takesKinds_newRequest :
    TakesKinds (SmartParser.label [newWord, certificateWord, requestWord])
      [newCertificateRequest] :=
  ⟨isLabel_label (by decide), fun kind => by cases kind <;> decide⟩

theorem takesKinds_none {words : List (List Char)}
    (h : words = [pkcs7Word] ∨ words = [pkcs12Word] ∨ words = [derWord, certificateWord] ∨
      words = [derWord, keyWord]) : TakesKinds (SmartParser.label words) [] := by
  rcases h with rfl | rfl | rfl | rfl
  all_goals exact ⟨isLabel_label (by decide), fun kind => by cases kind <;> decide⟩

end Tables

end BlockKind

/-! ### What each pass finds -/

namespace SmartParser

theorem filterMap_eq_map {α β : Type} {f : α → Option β} {g : α → β} {l : List α}
    (h : ∀ a ∈ l, f a = some (g a)) : l.filterMap f = l.map g := by
  rw [List.filterMap_congr h]
  exact congrFun List.filterMap_eq_map l

theorem unseen_eq_nil {seen : List ℕ} {found : List (ℕ × String)} (h : ∀ m ∈ found, m.1 ∈ seen) :
    unseen seen found = [] := by
  induction found with
  | nil => rfl
  | cons m found ih =>
    obtain ⟨start, pemBlock⟩ := m
    rw [unseen, if_pos (h (start, pemBlock) List.mem_cons_self)]
    exact ih fun m hm => h m (List.mem_cons_of_mem _ hm)

theorem unseen_append {seen : List ℕ} {found rest : List (ℕ × String)}
    (hnodup : (found.map Prod.fst).Nodup) (hnew : ∀ m ∈ found, m.1 ∉ seen) :
    unseen seen (found ++ rest) = found ++ unseen ((found.map Prod.fst).reverse ++ seen) rest := by
  induction found generalizing seen with
  | nil => rfl
  | cons m found ih =>
    obtain ⟨start, pemBlock⟩ := m
    rw [List.map_cons, List.nodup_cons] at hnodup
    have hrest : ∀ m ∈ found, m.1 ∉ start :: seen := by
      intro m hm
      rw [List.mem_cons, not_or]
      refine ⟨fun heq => hnodup.1 (List.mem_map.mpr ⟨m, hm, heq⟩), ?_⟩
      exact hnew m (List.mem_cons_of_mem _ hm)
    rw [List.cons_append, unseen, if_neg (hnew (start, pemBlock) List.mem_cons_self),
      ih hnodup.2 hrest, List.map_cons, List.reverse_cons, List.append_assoc]
    rfl

end SmartParser

namespace PemBundle

open SmartParser BlockKind

variable [CryptographyLibrary] [X509Library] [KeyIdLibrary] {t : PemBundle} {label : Pattern}
  {kinds : List BlockKind} {password : Option String}

def places (t : PemBundle) : List (ℕ × KnownBlock) := Pem.located KnownBlock.block 0 t.gap t.parts

def placed (t : PemBundle) (kinds : List BlockKind) : List (ℕ × KnownBlock) :=
  t.places.filter fun p => p.2.block.plain && decide (p.2.kind ∈ kinds)

theorem place_finditer (h : TakesKinds label kinds) :
    (finditer (Pem.armour label) t.text).map Found.place =
      (t.placed kinds).map fun p => (p.1, p.2.block.text) := by
  rw [finditer, text, String.toList_ofList, Pem.findAll_render h.1 t.gap_marks t.parts_marks]
  refine congrArg (List.map _) (List.filter_congr fun p _ => ?_)
  rw [Pem.Block.accepted, p.2.label, h.2, Bool.and_comm]

theorem pemBlocks_text (h : TakesKinds label kinds) :
    pemBlocks (Pem.armour label) t.text = (t.placed kinds).map fun p => (p.1, p.2.text) := by
  rw [pemBlocks, place_finditer h, List.map_map]
  rfl

theorem finditer_eq_nil (h : TakesKinds label []) : finditer (Pem.armour label) t.text = [] := by
  have hplace := place_finditer (t := t) h
  have hnone : t.placed [] = [] := by simp [placed]
  rw [hnone] at hplace
  exact List.map_eq_nil_iff.mp hplace

theorem parsePseudoPemBinary_text : parsePseudoPemBinary t.text password = [] := by
  rw [parsePseudoPemBinary, pkcs12Pattern, derCertPattern, derKeyPattern]
  rw [finditer_eq_nil (takesKinds_none (.inr (.inl rfl))),
    finditer_eq_nil (takesKinds_none (.inr (.inr (.inl rfl)))),
    finditer_eq_nil (takesKinds_none (.inr (.inr (.inr rfl))))]
  rfl

theorem parsePemPkcs7_text : parsePemPkcs7 t.text = [] := by
  rw [parsePemPkcs7, pemBlocks, pemPkcs7Pattern, finditer_eq_nil (takesKinds_none (.inl rfl))]
  rfl

def parsed (password : Option String) (b : KnownBlock) : Description :=
  if b.kind.isKey then describeKey password b.text else b.contents password

def object (password : Option String) (p : ℕ × KnownBlock) : DetectedObject :=
  ⟨p.2.text, p.1, parsed password p.2⟩

theorem kind_of_mem_placed {p : ℕ × KnownBlock} (h : p ∈ t.placed kinds) : p.2.kind ∈ kinds := by
  have hkind := (List.mem_filter.mp h).2
  rw [Bool.and_eq_true, decide_eq_true_eq] at hkind
  exact hkind.2

variable (password) in
theorem parsePemCertificates_text :
    parsePemCertificates t.text = (t.placed [certificate]).map (object password) := by
  rw [parsePemCertificates, pemCertPattern, pemBlocks_text takesKinds_certificate,
    List.filterMap_map]
  refine filterMap_eq_map fun p hp => ?_
  have hkind : p.2.kind = certificate := List.mem_singleton.mp (kind_of_mem_placed hp)
  have hcontents := p.2.contents_eq password
  rw [hkind] at hcontents
  obtain ⟨o, ho, hdescription⟩ := Option.map_eq_some_iff.mp hcontents
  rw [Function.comp_apply]
  dsimp only
  rw [ho, Option.map_some, object, parsed, hkind]
  exact congrArg some (congrArg (DetectedObject.mk p.2.text p.1) hdescription)

variable (password) in
theorem requests_text (h : TakesKinds label kinds)
    (hkinds : ∀ kind ∈ kinds, kind = certificateRequest ∨ kind = newCertificateRequest) :
    ((pemBlocks (Pem.armour label) t.text).filterMap fun (start, pemBlock) =>
        ((CryptographyLibrary.loadPemX509Csr pemBlock).bind describeCsr).map fun d =>
          (⟨pemBlock, start, d⟩ : DetectedObject)) =
      (t.placed kinds).map (object password) := by
  rw [pemBlocks_text h, List.filterMap_map]
  refine filterMap_eq_map fun p hp => ?_
  have hcontents := p.2.contents_eq password
  have hkind := hkinds p.2.kind (kind_of_mem_placed hp)
  have hnot : p.2.kind.isKey = false := by rcases hkind with hkind | hkind <;> rw [hkind] <;> rfl
  have hload : (CryptographyLibrary.loadPemX509Csr p.2.text).bind describeCsr =
      some (p.2.contents password) := by
    rcases hkind with hkind | hkind
    all_goals
      rw [hkind] at hcontents
      exact hcontents
  rw [Function.comp_apply]
  dsimp only
  rw [hload, Option.map_some, object, parsed, hnot]
  rfl

variable (password) in
theorem parsePemCsrs_text : parsePemCsrs t.text =
    (t.placed [certificateRequest] ++ t.placed [newCertificateRequest]).map (object password) := by
  rw [parsePemCsrs, pemCsrPatterns, List.flatMap_cons, List.flatMap_singleton,
    requests_text password takesKinds_request (by simp),
    requests_text password takesKinds_newRequest (by simp), List.map_append]

/-! ### Keys, each place once -/

theorem placed_append {kinds' : List BlockKind} (h : ∀ kind ∈ kinds, kind ∉ kinds') :
    (t.placed kinds ++ t.placed kinds').Perm (t.placed (kinds ++ kinds')) := by
  have hsplit : t.placed (kinds ++ kinds') = t.places.filter fun p =>
      (p.2.block.plain && decide (p.2.kind ∈ kinds)) ||
        (p.2.block.plain && decide (p.2.kind ∈ kinds')) := by
    refine List.filter_congr fun p _ => ?_
    rw [← Bool.and_or_distrib_left, ← Bool.decide_or]
    simp only [List.mem_append]
  rw [hsplit]
  apply perm_filter_append
  intro p _ hp
  rw [Bool.and_eq_true, decide_eq_true_eq] at hp
  rw [decide_eq_false (h p.2.kind hp.2), Bool.and_false]

theorem pairwise_places (t : PemBundle) : t.places.Pairwise fun p q => p.1 < q.1 :=
  Pem.pairwise_located

theorem nodup_placed (t : PemBundle) (kinds : List BlockKind) :
    ((t.placed kinds).map Prod.fst).Nodup :=
  List.pairwise_map.mpr ((t.pairwise_places.filter _).imp Nat.ne_of_lt)

theorem placed_subset {kinds' : List BlockKind} (h : kinds ⊆ kinds') {p : ℕ × KnownBlock}
    (hp : p ∈ t.placed kinds) : p ∈ t.placed kinds' := by
  obtain ⟨hmem, hplain⟩ := List.mem_filter.mp hp
  rw [Bool.and_eq_true, decide_eq_true_eq] at hplain
  exact List.mem_filter.mpr ⟨hmem, by rw [hplain.1, decide_eq_true (h hplain.2)]; rfl⟩

def keysPlaced (t : PemBundle) : List (ℕ × KnownBlock) :=
  t.placed [rsaPrivateKey, privateKey] ++ t.placed [ecPrivateKey] ++
    t.placed [encryptedPrivateKey]

theorem keysPlaced_perm (t : PemBundle) : t.keysPlaced.Perm
    (t.placed [rsaPrivateKey, privateKey, ecPrivateKey, encryptedPrivateKey]) :=
  ((placed_append (by decide)).append_right _).trans (placed_append (by decide))

theorem parsePemKeys_text :
    parsePemKeys t.text password = t.keysPlaced.map (object password) := by
  have hfound : (pemKeyPatterns.flatMap fun r => pemBlocks r t.text) =
      t.keysPlaced.map (fun p => (p.1, p.2.text)) ++
        (t.placed [privateKey]).map fun p => (p.1, p.2.text) := by
    rw [pemKeyPatterns, List.flatMap_cons, List.flatMap_cons, List.flatMap_cons,
      List.flatMap_singleton, pemBlocks_text takesKinds_rsa, pemBlocks_text takesKinds_ec,
      pemBlocks_text takesKinds_encrypted, pemBlocks_text takesKinds_private, keysPlaced]
    simp only [List.map_append, List.append_assoc]
  have hstarts : ((t.keysPlaced.map fun p => (p.1, p.2.text)).map Prod.fst).Nodup := by
    rw [List.map_map]
    exact (t.keysPlaced_perm.map Prod.fst).nodup_iff.mpr (t.nodup_placed _)
  have hagain : ∀ m ∈ (t.placed [privateKey]).map fun p => (p.1, p.2.text),
      m.1 ∈ ((t.keysPlaced.map fun p => (p.1, p.2.text)).map Prod.fst).reverse ++ [] := by
    intro m hm
    obtain ⟨p, hp, rfl⟩ := List.mem_map.mp hm
    rw [List.append_nil, List.mem_reverse, List.map_map]
    have hmem : p ∈ t.keysPlaced :=
      t.keysPlaced_perm.mem_iff.mpr (placed_subset (by decide) hp)
    exact List.mem_map.mpr ⟨p, hmem, rfl⟩
  rw [parsePemKeys, hfound, unseen_append hstarts (fun _ _ => List.not_mem_nil),
    unseen_eq_nil hagain, List.append_nil, List.map_map]
  refine List.map_congr_left fun p hp => ?_
  have hkind := kind_of_mem_placed (t.keysPlaced_perm.mem_iff.mp hp)
  have hkey : p.2.kind.isKey = true := by
    revert hkind
    cases p.2.kind <;> decide
  rw [Function.comp_apply, object, parsed, hkey]
  rfl

/-! ### All passes -/

theorem placed_all (t : PemBundle) : (t.placed [certificate] ++ t.keysPlaced ++
      (t.placed [certificateRequest] ++ t.placed [newCertificateRequest])).Perm
    (t.places.filter fun p => p.2.block.plain) := by
  have hall : (t.places.filter fun p => p.2.block.plain) = t.placed ([certificate] ++
      [rsaPrivateKey, privateKey, ecPrivateKey, encryptedPrivateKey] ++
        ([certificateRequest] ++ [newCertificateRequest])) := by
    refine List.filter_congr fun p _ => ?_
    cases p.2.kind <;> exact (Bool.and_true _).symm
  rw [hall]
  have hfirst : (t.placed [certificate] ++ t.keysPlaced).Perm (t.placed ([certificate] ++
      [rsaPrivateKey, privateKey, ecPrivateKey, encryptedPrivateKey])) :=
    (t.keysPlaced_perm.append_left _).trans (placed_append (by decide))
  have hlast : (t.placed [certificateRequest] ++ t.placed [newCertificateRequest]).Perm
      (t.placed ([certificateRequest] ++ [newCertificateRequest])) := placed_append (by decide)
  exact (hfirst.append hlast).trans (placed_append (by decide))

def found (password : Option String) (blocks : List KnownBlock) : List DetectedObject :=
  blocks.zipIdx.map fun (b, i) => ⟨b.text, i, parsed password b⟩

theorem indexed_map_object (password : Option String) (l : List (ℕ × KnownBlock)) :
    indexed (l.map (object password)) = found password (l.map Prod.snd) := by
  rw [indexed, found, List.zipIdx_map, List.zipIdx_map, List.map_map, List.map_map]
  rfl

theorem indexed_passes (t : PemBundle) (password : Option String) :
    indexed ((parsePseudoPemBinary t.text password ++ parsePemCertificates t.text ++
      parsePemKeys t.text password ++ parsePemCsrs t.text ++
      parsePemPkcs7 t.text).mergeSort fun o o' => o.index ≤ o'.index) =
        found password (t.blocks.filter fun b => b.block.plain) := by
  rw [parsePseudoPemBinary_text, parsePemCertificates_text password,
    parsePemKeys_text, parsePemCsrs_text password, parsePemPkcs7_text,
    List.nil_append, List.append_nil, ← List.map_append, ← List.map_append]
  have hsorted : ((t.places.filter fun p => p.2.block.plain).map (object password)).Pairwise
      fun o o' => o.index < o'.index :=
    List.pairwise_map.mpr (t.pairwise_places.filter _)
  rw [mergeSort_eq_of_perm (t.placed_all.map _) hsorted, indexed_map_object]
  have hblocks : t.blocks = t.places.map Prod.snd := Pem.map_snd_located.symm
  rw [hblocks, List.filter_map]
  rfl

theorem binaryObjects_text (h : t.blocks ≠ []) : binaryObjects t.text password = none := by
  have hoccurs : occursIn "-----BEGIN" t.text = true := by
    have hmark : "-----BEGIN".toList = Pem.beginMark := by decide
    rw [occursIn, decide_eq_true_eq, hmark, text, String.toList_ofList]
    cases hparts : t.parts with
    | nil => exact absurd (by rw [blocks, hparts]; rfl) h
    | cons part parts =>
      have hopens := Pem.opens_text part.1.block (Pem.render KnownBlock.block part.2 parts)
      exact hopens.isInfix.trans (List.suffix_append t.gap _).isInfix
  exact if_neg fun hboth => hboth.2 hoccurs

theorem parse_text (t : PemBundle) (password : Option String) : parse t.text password =
    (binaryObjects t.text password).getD
      (found password (t.blocks.filter fun b => b.block.plain)) := by
  rw [← indexed_passes]
  rfl

omit [X509Library] [KeyIdLibrary] in
theorem describeKey_eq_iff {password : Option String} {pemBlock : String} {d : Description}
    (h : (CryptographyLibrary.privateKey pemBlock).contents (SmartParser.givenPassword password) =
      some d) :
    describeKey password pemBlock = d ↔ KeyTold password pemBlock := by
  unfold describeKey KeyTold
  cases hkey : CryptographyLibrary.privateKey pemBlock with
  | unreadable =>
    rw [hkey] at h
    cases h
  | plain key =>
    rw [hkey] at h
    cases h
    dsimp only
    rw [KeyText.load]
    split_ifs with hgiven
    · simp [hgiven]
    · simp [hgiven]
  | encrypted key passphrase =>
    rw [hkey] at h
    cases h
    dsimp only
    rw [KeyText.load]
    split_ifs with hgiven
    · simp [hgiven]
    · simp [hgiven]

theorem parsed_eq_iff (b : KnownBlock) (password : Option String) :
    parsed password b = b.contents password ↔
      (b.kind.isKey = true → KeyTold password b.text) := by
  unfold parsed
  split_ifs with hkey
  · have hcontents := b.contents_eq password
    rw [imp_iff_right hkey]
    apply describeKey_eq_iff
    revert hcontents hkey
    unfold BlockKind.contents
    cases b.kind
    all_goals first
      | exact fun _ hcontents => hcontents
      | exact fun hkey => nomatch hkey
  · exact iff_of_true rfl fun h => absurd h hkey

theorem found_eq_iff (password : Option String) (bs : List KnownBlock) :
    found password (bs.filter fun b => b.block.plain) =
        (bs.zipIdx.map fun (b, i) => ⟨b.text, i, b.contents password⟩) ↔
      ∀ b ∈ bs, b.block.plain = true ∧ (b.kind.isKey = true → KeyTold password b.text) := by
  simp only [← parsed_eq_iff]
  constructor
  · intro heq b hb
    have hlength : (bs.filter fun b => b.block.plain).length = bs.length := by
      have hlengths := congrArg List.length heq
      rwa [found, List.length_map, List.length_map, List.length_zipIdx, List.length_zipIdx]
        at hlengths
    have hplain := List.length_filter_eq_length_iff.mp hlength
    refine ⟨hplain b hb, ?_⟩
    rw [List.filter_eq_self.mpr hplain, found] at heq
    obtain ⟨i, hi, rfl⟩ := List.getElem_of_mem hb
    have hmem : (bs[i], i) ∈ bs.zipIdx := List.mk_mem_zipIdx_iff_getElem?.mpr (by simp [hi])
    have hsame := List.map_inj_left.mp heq (bs[i], i) hmem
    exact congrArg DetectedObject.description hsame
  · intro hall
    rw [List.filter_eq_self.mpr fun b hb => (hall b hb).1, found]
    refine List.map_congr_left fun p hp => ?_
    have hmem : p.1 ∈ bs := List.fst_mem_of_mem_zipIdx hp
    exact congrArg (DetectedObject.mk p.1.text p.2) (hall p.1 hmem).2

theorem parse_of_blocks (h : t.blocks ≠ []) : parse t.text password = t.objects password ↔
    ∀ b ∈ t.blocks, b.block.plain = true ∧ (b.kind.isKey = true → KeyTold password b.text) := by
  rw [parse_text, binaryObjects_text h, Option.getD_none]
  exact found_eq_iff password t.blocks

/-- A text of blocks gives the objects of its blocks exactly if it is recognized. -/
theorem parse_eq_objects_iff (t : PemBundle) (password : Option String) :
    parse t.text password = t.objects password ↔ t.Recognized password := by
  by_cases hblocks : t.blocks = []
  · rw [parse_text]
    have hobjects : t.objects password = [] := by rw [objects, hblocks]; rfl
    have hfound : found password (t.blocks.filter fun b => b.block.plain) = [] := by
      rw [hblocks]
      rfl
    rw [hobjects, hfound]
    constructor
    · intro hnone
      refine ⟨?_, ?_, fun _ binary hbinary => ?_⟩
      · rw [hblocks]
        exact fun b hb => nomatch hb
      · rw [hblocks]
        exact fun b hb => nomatch hb
      · rw [hbinary, Option.getD_some] at hnone
        exact hnone
    · intro hrecognized
      cases hbinary : binaryObjects t.text password with
      | none => rfl
      | some binary => exact hrecognized.alone hblocks binary hbinary
  · refine (parse_of_blocks hblocks).trans ⟨fun hall => ?_, fun hrecognized b hb => ?_⟩
    · exact ⟨fun b hb => (hall b hb).1, fun b hb => (hall b hb).2,
        fun hnone => absurd hnone hblocks⟩
    · exact ⟨hrecognized.plain b hb, hrecognized.keys b hb⟩

end PemBundle

/-! ### A key in the older format -/

section Sample

@[reducible] def encryptedKeyLibrary : CryptographyLibrary where
  loadPemX509Certificate _ := none
  loadPemX509Csr _ := none
  privateKey _ := .encrypted ⟨.rsa 2048, 1⟩ "secret"
  loadPemPkcs7Certificates _ := none
  loadKeyAndCertificates _ _ := none
  loadDerX509Certificate _ := none
  loadDerPrivateKey _ _ := none
  loadDerPkcs7Certificates _ := none
  certificatePem _ := ""
  privateKeyPem _ := ""
  curveSize _ := 0
  edwards _ := none

/-- The block of an encrypted RSA key: two lines that say how, and then the data. -/
def headedBlock : Pem.Block where
  label := BlockKind.rsaPrivateKey.label
  body := '\n' :: ("Proc-Type: 4,ENCRYPTED\nDEK-Info: AES-128-CBC,00\n\n".toList ++ "MIIB\n".toList)
  label_dash := BlockKind.label_dash _
  body_line := ⟨'\n', _, rfl, by decide⟩
  body_marks := by decide +kernel

end Sample

/-- A text of one encrypted key. -/
theorem headedKey_not_found :
    let _ := encryptedKeyLibrary
    let _ := sampleLibrary
    let _ := SkiAkiBackfill.numberedKeyIds
    ¬∀ (t : PemBundle) (password : Option String),
      SmartParser.parse t.text password = t.objects password := by
  intro _ _ _ hall
  let t : PemBundle :=
    { gap := [], parts := [(⟨.rsaPrivateKey, headedBlock, rfl, rfl⟩, [])]
      gap_marks := by decide, parts_marks := by decide }
  have hblocks : t.blocks ≠ [] := List.cons_ne_nil _ _
  have hfound := (PemBundle.parse_of_blocks hblocks).mp (hall t (some "secret"))
  have hplain : headedBlock.plain = true := (hfound _ List.mem_cons_self).1
  revert hplain
  decide +kernel

end CaManager
