import CaManager.Library.TextLists
import CaManager.Store.SanNames

/-!
# Columns of alternative names

A row keeps the alternative names of its certificate or request in four columns, one for each type
of name, each with the text of an array. Every writer fills the columns in its own way. Four readers
return the arrays, and one joins three of them for display. The names are read back from the rows
of some writers only, and only if they stand in the order of the columns.
-/

namespace CaManager

open Library JsonTree SanEntries

/-- The `san_*` columns of a row. -/
structure SanColumns where
  sanDns : Option String := none
  sanIp : Option String := none
  sanEmail : Option String := none
  sanUri : Option String := none
  deriving Repr, DecidableEq

namespace SanColumns

section Readers

variable {F : Type*} [FloatText F]

def listOf : Option String → JsonTree F
  | none => array []
  | some column => if column = "" then array [] else (loads column).getD (array [])

variable (c : SanColumns)

def sanDnsList : JsonTree F := listOf c.sanDns

def sanIpList : JsonTree F := listOf c.sanIp

def sanEmailList : JsonTree F := listOf c.sanEmail

def sanUriList : JsonTree F := listOf c.sanUri

def elements : JsonTree F → Option (List (JsonTree F))
  | array es => some es
  | object ms => some (ms.map fun m => text m.1)
  | text s => some (s.toList.map fun d => text (String.singleton d))
  | _ => none

variable (shown : JsonTree F → String)

/-- A value in a text: a text as it is, anything else as the language shows it. -/
def formatted : JsonTree F → String
  | text s => s
  | v => shown v

/-- A column with its label. Without a bracket it is one name, and so it is if it cannot be read. -/
def combinedPart (label : String) : Option String → List String
  | none => []
  | some column =>
    if column = "" then []
    else if startsWith column "[" then
      match (loads column).bind elements with
      | some es => es.map fun e => label ++ formatted shown e
      | none => [label ++ column]
    else [label ++ column]

def sanCombined : String :=
  ", ".intercalate (combinedPart shown "DNS:" c.sanDns ++ combinedPart shown "IP:" c.sanIp ++
    combinedPart shown "Email:" c.sanEmail)

end Readers

section Writers

/-- `json.dumps(names) if names else None` -/
def dumped (names : List String) : Option String :=
  if names = [] then none else some (dumpsTexts names)

/-- `str(names) if names else None` -/
def shownNames (printable : Char → Bool) (names : List String) : Option String :=
  if names = [] then none else some (reprTexts printable names)

def ofRoute (req : SanRequest) : SanColumns :=
  { sanDns := some (dumpsTexts req.sanDns), sanIp := some (dumpsTexts req.sanIp)
    sanEmail := some (dumpsTexts req.sanEmail) }

/-- `create_certificate` writes what it is asked for. -/
def ofCreate (san : TrustStoreService.SanLists) : SanColumns :=
  { sanDns := dumped san.dns, sanIp := dumped san.ip, sanEmail := dumped san.email
    sanUri := dumped san.uri }

/-- `import_csr` shows its lists. -/
def ofImportedCsr (printable : Char → Bool) (names : List GeneralName) : SanColumns :=
  { sanDns := shownNames printable (names.filterMap GeneralName.dnsName?)
    sanIp := shownNames printable (names.filterMap GeneralName.ipAddress?)
    sanEmail := shownNames printable (names.filterMap GeneralName.rfc822Name?) }

/-- `import_certificate` reads names of all four types. -/
def ofImportedCertificate (names : List GeneralName) : SanColumns :=
  { sanDns := dumped (names.filterMap GeneralName.dnsName?)
    sanIp := dumped (names.filterMap GeneralName.ipAddress?)
    sanEmail := dumped (names.filterMap GeneralName.rfc822Name?)
    sanUri := dumped (names.filterMap GeneralName.uri?) }

def ofSmartImport (names : List GeneralName) : SanColumns :=
  { sanDns := dumped (names.filterMap GeneralName.dnsName?)
    sanIp := dumped (names.filterMap GeneralName.ipAddress?) }

/-- `sign_csr` leaves a column as it is where the certificate has no such name. -/
def signed (names : List GeneralName) (c : SanColumns) : SanColumns :=
  { c with
    sanDns := (dumped (names.filterMap GeneralName.dnsName?)).or c.sanDns
    sanIp := (dumped (names.filterMap GeneralName.ipAddress?)).or c.sanIp
    sanEmail := (dumped (names.filterMap GeneralName.rfc822Name?)).or c.sanEmail }

end Writers

end SanColumns

section Names

def addressText (given : String) : String :=
  match ipAddressOfText given with
  | some (.v4 a) => textOfIpv4 a
  | some (.v6 a) => textOfIpv6 a
  | none => given

def GeneralName.asRead : GeneralName → GeneralName
  | .ip given => .ip (addressText given)
  | name => name

def GeneralName.labelled : GeneralName → String
  | .dns value => "DNS:" ++ value
  | .ip value => "IP:" ++ value
  | .email value => "Email:" ++ value
  | .uri value => "URI:" ++ value
  | .other kind value => kind ++ ":" ++ value

def TrustStoreService.SanLists.issued [MailLibrary] (san : SanLists) :
    Except PyError (List GeneralName) := do
  let dns ← san.dns.mapM (SanRequest.asciiName .dns)
  let ip ← san.ip.mapM SanRequest.ipName
  let uri ← san.uri.mapM (SanRequest.asciiName .uri)
  let email ← san.email.mapM SanRequest.rfc822Name
  return (dns ++ ip ++ uri ++ email).map GeneralName.asRead

end Names

inductive RequestWriter
  | generateCsr (dns ip : List String)
  | uploadCsr (names : List GeneralName)
  | importCsr (names : List GeneralName)
  | smartImport (names : List GeneralName)

/-- The writers of rows. A firewall's configuration and an enrolment fill the columns as
`import_certificate` does; the import of a file, of a client's certificate and of a backup leave
them empty. -/
inductive SanWriter
  | request (writer : RequestWriter)
  | signCsr (writer : RequestWriter)
  | createRoute (req : SanRequest)
  | createCertificate (san : TrustStoreService.SanLists)
  | importCertificate (names : List GeneralName)
  | importFile (names : List GeneralName)
  | smartImport (names : List GeneralName)

section Rows

variable [MailLibrary] (printable : Char → Bool)

def RequestWriter.write : RequestWriter → Except PyError (List GeneralName × SanColumns)
  | generateCsr dns ip => do
    let names ← TrustStoreService.SanLists.issued { dns, ip }
    return (names, {})
  | uploadCsr names => .ok (names, {})
  | importCsr names => .ok (names, .ofImportedCsr printable names)
  | smartImport names => .ok (names, .ofSmartImport names)

/-- The names of a certificate or request and the columns of its row. A certificate that is signed
for a request has its names. -/
def SanWriter.write : SanWriter → Except PyError (List GeneralName × SanColumns)
  | request writer => writer.write printable
  | signCsr writer => do
    let (names, columns) ← writer.write printable
    return (names, columns.signed names)
  | createRoute req => do
    let names ← req.sanNames
    return (names.map GeneralName.asRead, .ofRoute req.typed)
  | createCertificate san => do
    let names ← san.issued
    return (names, .ofCreate san)
  | importCertificate names => .ok (names, .ofImportedCertificate names)
  | importFile names => .ok (names, {})
  | smartImport names => .ok (names, .ofSmartImport names)

end Rows

/-- What is asked of a row: each reader returns the names of its type, and the display has all
names, in their order. -/
structure SanColumns.ReadBack {F : Type*} [FloatText F] (shown : JsonTree F → String)
    (names : List GeneralName) (c : SanColumns) : Prop where
  dns : c.sanDnsList = (array ((names.filterMap GeneralName.dnsName?).map text) : JsonTree F)
  ip : c.sanIpList = (array ((names.filterMap GeneralName.ipAddress?).map text) : JsonTree F)
  email : c.sanEmailList = (array ((names.filterMap GeneralName.rfc822Name?).map text) : JsonTree F)
  uri : c.sanUriList = (array ((names.filterMap GeneralName.uri?).map text) : JsonTree F)
  combined : c.sanCombined shown = ", ".intercalate (names.map GeneralName.labelled)

section Order

def InColumnOrder (names : List GeneralName) : Prop :=
  ∃ dns ip email : List String, names = dns.map .dns ++ ip.map .ip ++ email.map .email

def columnNames (names : List GeneralName) : List GeneralName :=
  (names.filterMap GeneralName.dnsName?).map .dns ++
    (names.filterMap GeneralName.ipAddress?).map .ip ++
    (names.filterMap GeneralName.rfc822Name?).map .email

def followedLabels (names : List GeneralName) : List Char :=
  (names.map GeneralName.labelled).flatMap fun s => s.toList ++ ", ".toList

variable {names : List GeneralName}

theorem inColumnOrder_iff : InColumnOrder names ↔ columnNames names = names := by
  constructor
  · intro ⟨dns, ip, email, hnames⟩
    rw [hnames]
    simp [columnNames, List.filterMap_append, List.filterMap_map, Function.comp_def,
      GeneralName.dnsName?, GeneralName.ipAddress?, GeneralName.rfc822Name?]
  · intro h
    exact ⟨_, _, _, h.symm⟩

def GeneralName.isDisplayed : GeneralName → Bool
  | .dns _ | .ip _ | .email _ => true
  | _ => false

theorem length_followedLabels_of_perm {names' : List GeneralName} (h : names.Perm names') :
    (followedLabels names).length = (followedLabels names').length :=
  ((h.map _).flatMap_right _).length_eq

theorem filterMap_displayed {f : GeneralName → Option String}
    (hf : ∀ name : GeneralName, name.isDisplayed = false → f name = none)
    (names : List GeneralName) :
    (names.filter GeneralName.isDisplayed).filterMap f = names.filterMap f := by
  rw [List.filterMap_filter]
  apply List.filterMap_congr
  intro name _
  split_ifs with hdisplayed
  · rfl
  · exact (hf name (by simpa using hdisplayed)).symm

theorem columnNames_perm (names : List GeneralName) :
    (columnNames names).Perm (names.filter GeneralName.isDisplayed) := by
  have hcolumns : columnNames (names.filter GeneralName.isDisplayed) = columnNames names := by
    unfold columnNames
    rw [filterMap_displayed, filterMap_displayed, filterMap_displayed]
    all_goals
      intro name hname
      cases name <;> first | rfl | cases hname
  have htypes : ∀ name ∈ names.filter GeneralName.isDisplayed, ∃ value,
      name = .dns value ∨ name = .ip value ∨ name = .email value := by
    intro name hname
    have hdisplayed := (List.mem_filter.mp hname).2
    cases name with
    | dns value => exact ⟨value, .inl rfl⟩
    | ip value => exact ⟨value, .inr (.inl rfl)⟩
    | email value => exact ⟨value, .inr (.inr rfl)⟩
    | uri | other => cases hdisplayed
  have hperm := SanRequest.perm_of_types htypes
  rwa [← columnNames, hcolumns] at hperm

theorem isDisplayed_of_followedLabels
    (h : followedLabels (columnNames names) = followedLabels names) {name : GeneralName}
    (hname : name ∈ names) : name.isDisplayed = true := by
  by_contra hhidden
  have hall := length_followedLabels_of_perm (List.filter_append_perm GeneralName.isDisplayed names)
  have hcolumns := length_followedLabels_of_perm (columnNames_perm names)
  have hsplit : followedLabels (names.filter GeneralName.isDisplayed ++
      names.filter fun name => !name.isDisplayed) =
      followedLabels (names.filter GeneralName.isDisplayed) ++
        followedLabels (names.filter fun name => !name.isDisplayed) := by
    simp [followedLabels]
  have hmissed : followedLabels (names.filter fun name => !name.isDisplayed) = [] := by
    rw [hsplit, List.length_append, ← hcolumns, h] at hall
    exact List.length_eq_zero_iff.mp (by omega)
  have hmem : name ∈ names.filter fun name => !name.isDisplayed :=
    List.mem_filter.mpr ⟨hname, by simpa using hhidden⟩
  have hnil := List.flatMap_eq_nil_iff.mp hmissed _ (List.mem_map_of_mem hmem)
  simp at hnil

theorem followedLabels_cons (name : GeneralName) :
    followedLabels (name :: names) =
      name.labelled.toList ++ (", ".toList ++ followedLabels names) := by
  rw [followedLabels, List.map_cons, List.flatMap_cons, List.append_assoc, ← followedLabels]

theorem followedLabels_cons_inj {name : GeneralName} {names' : List GeneralName}
    (h : followedLabels (name :: names) = followedLabels (name :: names')) :
    followedLabels names = followedLabels names' := by
  rw [followedLabels_cons, followedLabels_cons] at h
  exact List.append_cancel_left (List.append_cancel_left h)

theorem columnNames_ip (h : names.filterMap GeneralName.dnsName? = []) (value : String) :
    columnNames (.ip value :: names) = .ip value :: columnNames names := by
  change (names.filterMap GeneralName.dnsName?).map _ ++ (GeneralName.ip value :: _) ++ _ = _
  rw [columnNames, h]
  rfl

theorem columnNames_email (h : names.filterMap GeneralName.dnsName? = [])
    (h' : names.filterMap GeneralName.ipAddress? = []) (value : String) :
    columnNames (.email value :: names) = .email value :: columnNames names := by
  change (names.filterMap GeneralName.dnsName?).map _ ++
    (names.filterMap GeneralName.ipAddress?).map _ ++ (GeneralName.email value :: _) = _
  rw [columnNames, h, h']
  rfl

def initial : GeneralName → Option Char
  | .dns _ => some 'D'
  | .ip _ => some 'I'
  | .email _ => some 'E'
  | _ => none

theorem head?_followedLabels {name : GeneralName} (h : names.head? = some name)
    (hdisplayed : name.isDisplayed = true) : (followedLabels names).head? = initial name := by
  obtain ⟨rest, rfl⟩ := List.head?_eq_some_iff.mp h
  rw [followedLabels_cons]
  cases name with
  | dns | ip | email => simp [GeneralName.labelled, initial]
  | uri | other => cases hdisplayed

theorem ne_of_head? {name name' : GeneralName} {names' : List GeneralName}
    (h : names.head? = some name) (h' : names'.head? = some name')
    (hdisplayed : name.isDisplayed = true) (hdisplayed' : name'.isDisplayed = true)
    (hne : initial name ≠ initial name') : followedLabels names ≠ followedLabels names' := by
  intro heq
  rw [← head?_followedLabels h hdisplayed, ← head?_followedLabels h' hdisplayed', heq] at hne
  exact hne rfl

theorem columnNames_eq_of_followedLabels
    (h : followedLabels (columnNames names) = followedLabels names) :
    columnNames names = names := by
  induction names with
  | nil => rfl
  | cons name names ih =>
    have hdisplayed := isDisplayed_of_followedLabels h List.mem_cons_self
    cases name with
    | dns value =>
      have hcons : columnNames (.dns value :: names) = .dns value :: columnNames names := rfl
      rw [hcons] at h ⊢
      rw [ih (followedLabels_cons_inj h)]
    | ip value =>
      cases hdns : names.filterMap GeneralName.dnsName? with
      | nil =>
        rw [columnNames_ip hdns] at h ⊢
        rw [ih (followedLabels_cons_inj h)]
      | cons first others =>
        -- the name of a domain is displayed first
        have hfirst : (columnNames (.ip value :: names)).head? = some (.dns first) := by
          change ((names.filterMap GeneralName.dnsName?).map _ ++ _ ++ _).head? = _
          rw [hdns]
          rfl
        exact absurd h (ne_of_head? hfirst rfl rfl rfl (by simp [initial]))
    | email value =>
      cases hdns : names.filterMap GeneralName.dnsName? with
      | nil =>
        cases hip : names.filterMap GeneralName.ipAddress? with
        | nil =>
          rw [columnNames_email hdns hip] at h ⊢
          rw [ih (followedLabels_cons_inj h)]
        | cons first others =>
          have hfirst : (columnNames (.email value :: names)).head? = some (.ip first) := by
            change ((names.filterMap GeneralName.dnsName?).map _ ++
              (names.filterMap GeneralName.ipAddress?).map _ ++ _).head? = _
            rw [hdns, hip]
            rfl
          exact absurd h (ne_of_head? hfirst rfl rfl rfl (by simp [initial]))
      | cons first others =>
        have hfirst : (columnNames (.email value :: names)).head? = some (.dns first) := by
          change ((names.filterMap GeneralName.dnsName?).map _ ++ _ ++ _).head? = _
          rw [hdns]
          rfl
        exact absurd h (ne_of_head? hfirst rfl rfl rfl (by simp [initial]))
    | uri | other => cases hdisplayed

theorem labelled_ne_empty (name : GeneralName) : name.labelled ≠ "" := by
  have hlabel : ∀ front value : String, front ++ ":" ++ value ≠ "" := by
    intro front value hempty
    rw [String.append_eq_empty_iff, String.append_eq_empty_iff] at hempty
    exact absurd hempty.1.2 (by decide)
  cases name with
  | dns value => exact hlabel "DNS" value
  | ip value => exact hlabel "IP" value
  | email value => exact hlabel "Email" value
  | uri value => exact hlabel "URI" value
  | other kind value => exact hlabel kind value

theorem intercalate_columnNames_iff :
    ", ".intercalate ((columnNames names).map GeneralName.labelled) =
      ", ".intercalate (names.map GeneralName.labelled) ↔ InColumnOrder names := by
  rw [inColumnOrder_iff]
  constructor
  · intro h
    apply columnNames_eq_of_followedLabels
    apply flatMap_eq_of_intercalate _ _ h
    all_goals
      intro s hs
      obtain ⟨name, -, rfl⟩ := List.mem_map.mp hs
      exact labelled_ne_empty name
  · intro h
    rw [h]

end Order

namespace SanColumns

section Reading

variable {F : Type*} [FloatText F] {shown : JsonTree F → String} {printable : Char → Bool}
  {column : Option String} {texts : List String} {element : String → List Char}

/-- A column from which both kinds of readers have these texts. -/
structure ReadsAs (shown : JsonTree F → String) (column : Option String) (texts : List String) :
    Prop where
  list : listOf column = (array (texts.map text) : JsonTree F)
  part : ∀ label, combinedPart shown label column = texts.map (label ++ ·)

theorem readsAs_none : ReadsAs shown none [] := ⟨rfl, fun _ => rfl⟩

theorem readsAs_listed (h : loads (String.ofList (listed element texts)) =
    some (array (texts.map text) : JsonTree F)) :
    ReadsAs shown (some (String.ofList (listed element texts))) texts := by
  obtain ⟨cs, hcs⟩ := List.head?_eq_some_iff.mp (head?_listed element texts)
  have hne : String.ofList (listed element texts) ≠ "" := by
    intro hempty
    have hlist := congrArg String.toList hempty
    rw [String.toList_ofList, hcs] at hlist
    cases hlist
  have hchars : (String.ofList (listed element texts)).toList = '[' :: cs := by
    rw [String.toList_ofList, hcs]
  have hbracket : startsWith (String.ofList (listed element texts)) "[" = true := by
    rw [startsWith, hchars]
    rfl
  constructor
  · rw [listOf, if_neg hne, h, Option.getD_some]
  · intro label
    rw [combinedPart, if_neg hne, if_pos hbracket, h, Option.bind_some, elements]
    simp [formatted]

theorem readsAs_dumpsTexts (texts : List String) : ReadsAs shown (some (dumpsTexts texts)) texts :=
  readsAs_listed (loads_dumpsTexts texts)

theorem readsAs_dumped (texts : List String) : ReadsAs shown (dumped texts) texts := by
  unfold dumped
  split_ifs with hnil
  · rw [hnil]
    exact readsAs_none
  · exact readsAs_dumpsTexts texts

theorem readsAs_shownNames (h : ∀ s ∈ texts, ShownLikeJson printable s) :
    ReadsAs shown (shownNames printable texts) texts := by
  unfold shownNames
  split_ifs with hnil
  · rw [hnil]
    exact readsAs_none
  · exact readsAs_listed (loads_reprTexts h)

theorem readsAs_or (h : texts = [] → column = none) :
    ReadsAs shown ((dumped texts).or column) texts := by
  by_cases hnil : texts = []
  · rw [h hnil, Option.or_none]
    exact readsAs_dumped texts
  · have hdumped : dumped texts = some (dumpsTexts texts) := if_neg hnil
    rw [hdumped, Option.some_or]
    exact readsAs_dumpsTexts texts

theorem listOf_shownNames (h : ¬ ∀ s ∈ texts, ShownLikeJson printable s) :
    listOf (shownNames printable texts) = (array [] : JsonTree F) := by
  unfold shownNames
  split_ifs with hnil
  · rfl
  · rw [listOf, loads_reprTexts_eq_none h, Option.getD_none, ite_self]

omit [FloatText F] in
theorem array_map_text_inj {texts' : List String} :
    (array (texts.map text) : JsonTree F) = array (texts'.map text) ↔ texts = texts' := by
  rw [array.injEq]
  exact List.map_inj_right fun _ _ h => text.inj h

theorem readBack_iff_of_readsAs {names : List GeneralName} {c : SanColumns}
    {dns ip email uri : List String} (hdns : ReadsAs shown c.sanDns dns)
    (hip : ReadsAs shown c.sanIp ip) (hemail : ReadsAs shown c.sanEmail email)
    (huri : ReadsAs shown c.sanUri uri) :
    c.ReadBack shown names ↔ names.filterMap GeneralName.dnsName? = dns ∧
      names.filterMap GeneralName.ipAddress? = ip ∧
      names.filterMap GeneralName.rfc822Name? = email ∧
      names.filterMap GeneralName.uri? = uri ∧ InColumnOrder names := by
  have hcombined : c.sanCombined shown = ", ".intercalate
      ((dns.map GeneralName.dns ++ ip.map GeneralName.ip ++ email.map GeneralName.email).map
        GeneralName.labelled) := by
    rw [sanCombined, hdns.part, hip.part, hemail.part]
    simp [GeneralName.labelled, Function.comp_def]
  constructor
  · intro h
    have hdns' := array_map_text_inj.mp (hdns.list.symm.trans h.dns)
    have hip' := array_map_text_inj.mp (hip.list.symm.trans h.ip)
    have hemail' := array_map_text_inj.mp (hemail.list.symm.trans h.email)
    have huri' := array_map_text_inj.mp (huri.list.symm.trans h.uri)
    have hjoined := hcombined.symm.trans h.combined
    rw [hdns', hip', hemail'] at hjoined
    exact ⟨hdns'.symm, hip'.symm, hemail'.symm, huri'.symm, intercalate_columnNames_iff.mp hjoined⟩
  · intro ⟨hdns', hip', hemail', huri', horder⟩
    have hjoined := intercalate_columnNames_iff.mpr horder
    rw [columnNames, hdns', hip', hemail'] at hjoined
    constructor
    · rw [hdns']
      exact hdns.list
    · rw [hip']
      exact hip.list
    · rw [hemail']
      exact hemail.list
    · rw [huri']
      exact huri.list
    · rw [hcombined, hjoined]

end Reading

end SanColumns

section Writers

variable [MailLibrary] {names out : List GeneralName} {req : SanRequest}
  {san : TrustStoreService.SanLists}

theorem TrustStoreService.SanLists.issued_eq_ok (h : san.issued = .ok names) :
    names = san.names.map GeneralName.asRead := by
  simp only [issued, bind_eq_ok, pure_eq_ok] at h
  obtain ⟨dns, hdns, ip, hip, uri, huri, email, hemail, rfl⟩ := h
  rw [names, SanRequest.map_of_mapM (fun _ _ => SanRequest.asciiName_eq_ok) hdns,
    SanRequest.map_of_mapM (fun _ _ => SanRequest.ipName_eq_ok) hip,
    SanRequest.map_of_mapM (fun _ _ => SanRequest.asciiName_eq_ok) huri,
    SanRequest.map_of_mapM (fun _ _ => SanRequest.rfc822Name_eq_ok) hemail]
  rfl

theorem SanRequest.addOwnNames_eq (h : req.addOwnNames names = .ok out) :
    out = req.cnNames ++ names ++
      (if req.addsEmail (req.cnNames ++ names) then [.email req.email] else []) := by
  simp only [addOwnNames, bind_eq_ok] at h
  obtain ⟨withDns, hdns, withCn, hemail, h⟩ := h
  have hcn : withCn = req.cnNames ++ names := by
    rw [inFront_eq_ok (fun _ => rfc822Name_eq_ok) hemail,
      inFront_eq_ok (fun _ => asciiName_eq_ok) hdns, cnNames, List.append_assoc]
    rfl
  rw [hcn] at h
  split_ifs at h ⊢
  · obtain ⟨name, hname, rfl⟩ := map_eq_ok.mp h
    rw [rfc822Name_eq_ok hname]
  · rw [List.append_nil, ← Except.ok.inj h]

end Writers

def RequestWriter.ReadBackWhen (printable : Char → Bool) : RequestWriter → Prop
  | generateCsr dns ip => dns = [] ∧ ip = []
  | uploadCsr names => names = []
  | importCsr names => InColumnOrder names ∧ (∀ s ∈ names.filterMap GeneralName.dnsName? ++
      names.filterMap GeneralName.ipAddress? ++ names.filterMap GeneralName.rfc822Name?,
      ShownLikeJson printable s)
  | smartImport names => ∃ dns ip : List String, names = dns.map .dns ++ ip.map .ip

/-- A signed row has the names of its request in their columns, if it was asked for no others. -/
def RequestWriter.SignedReadBackWhen : RequestWriter → Prop
  | generateCsr _ _ => True
  | uploadCsr names | importCsr names | smartImport names => InColumnOrder names

def SanWriter.ReadBackWhen (printable : Char → Bool) : SanWriter → Prop
  | request writer => writer.ReadBackWhen printable
  | signCsr writer => writer.SignedReadBackWhen
  | createRoute req => req.typed.ownNames req.typed.arrayNames = [] ∧ req.sanUri = [] ∧
      ∀ ip ∈ req.typed.sanIp, addressText ip = ip
  | createCertificate san => san.uri = [] ∧ ∀ ip ∈ san.ip, addressText ip = ip
  | importCertificate names => InColumnOrder names
  | importFile names => names = []
  | smartImport names => ∃ dns ip : List String, names = dns.map .dns ++ ip.map .ip

section Imported

open SanColumns

variable {F : Type*} [FloatText F] {shown : JsonTree F → String} {printable : Char → Bool}
  {names : List GeneralName} {columns : SanColumns}

theorem InColumnOrder.uris (h : InColumnOrder names) : names.filterMap GeneralName.uri? = [] := by
  obtain ⟨dns, ip, email, rfl⟩ := h
  simp [List.filterMap_append, List.filterMap_map, Function.comp_def, GeneralName.uri?]

theorem readBack_importedCertificate_iff :
    (ofImportedCertificate names).ReadBack shown names ↔ InColumnOrder names := by
  rw [readBack_iff_of_readsAs (readsAs_dumped _) (readsAs_dumped _) (readsAs_dumped _)
    (readsAs_dumped _)]
  simp

theorem readBack_smartImport_iff : (ofSmartImport names).ReadBack shown names ↔
    ∃ dns ip : List String, names = dns.map .dns ++ ip.map .ip := by
  rw [readBack_iff_of_readsAs (readsAs_dumped _) (readsAs_dumped _) readsAs_none readsAs_none]
  constructor
  · rintro ⟨_, _, hemail, _, dns, ip, email, hnames⟩
    have hnone : email = [] := by
      rw [hnames] at hemail
      simpa [List.filterMap_append, List.filterMap_map, Function.comp_def,
        GeneralName.rfc822Name?] using hemail
    exact ⟨dns, ip, by rw [hnames, hnone, List.map_nil, List.append_nil]⟩
  · rintro ⟨dns, ip, hnames⟩
    have horder : InColumnOrder names :=
      ⟨dns, ip, [], by rw [hnames, List.map_nil, List.append_nil]⟩
    refine ⟨rfl, rfl, ?_, horder.uris, horder⟩
    rw [hnames]
    simp [List.filterMap_append, List.filterMap_map, Function.comp_def, GeneralName.rfc822Name?]

theorem readBack_unwritten_iff : ReadBack shown names {} ↔ names = [] := by
  rw [readBack_iff_of_readsAs readsAs_none readsAs_none readsAs_none readsAs_none]
  constructor
  · intro ⟨hdns, hip, hemail, _, horder⟩
    rw [inColumnOrder_iff] at horder
    rw [← horder, columnNames, hdns, hip, hemail]
    rfl
  · intro hnames
    rw [hnames]
    exact ⟨rfl, rfl, rfl, rfl, [], [], [], rfl⟩

theorem forall_of_listOf_shownNames {texts : List String}
    (h : listOf (shownNames printable texts) = (array (texts.map text) : JsonTree F)) :
    ∀ s ∈ texts, ShownLikeJson printable s := by
  by_contra hshown
  rw [listOf_shownNames hshown, array.injEq] at h
  have hnil := List.map_eq_nil_iff.mp h.symm
  rw [hnil] at hshown
  exact hshown fun s hs => absurd hs List.not_mem_nil

theorem readBack_importedCsr_iff : (ofImportedCsr printable names).ReadBack shown names ↔
    InColumnOrder names ∧ (∀ s ∈ names.filterMap GeneralName.dnsName? ++
      names.filterMap GeneralName.ipAddress? ++ names.filterMap GeneralName.rfc822Name?,
      ShownLikeJson printable s) := by
  constructor
  · intro h
    have hdns := forall_of_listOf_shownNames h.dns
    have hip := forall_of_listOf_shownNames h.ip
    have hemail := forall_of_listOf_shownNames h.email
    have hread := (readBack_iff_of_readsAs (readsAs_shownNames hdns) (readsAs_shownNames hip)
      (readsAs_shownNames hemail) readsAs_none).mp h
    refine ⟨hread.2.2.2.2, ?_⟩
    intro s hs
    simp only [List.mem_append] at hs
    rcases hs with (hs | hs) | hs
    · exact hdns s hs
    · exact hip s hs
    · exact hemail s hs
  · intro ⟨horder, hshown⟩
    simp only [List.forall_mem_append] at hshown
    obtain ⟨⟨hdns, hip⟩, hemail⟩ := hshown
    apply (readBack_iff_of_readsAs (readsAs_shownNames hdns) (readsAs_shownNames hip)
      (readsAs_shownNames hemail) readsAs_none).mpr
    exact ⟨rfl, rfl, rfl, horder.uris, horder⟩

/-- What holds of the row of a request: a column for a type that has no names is empty. -/
structure EmptyWithout (names : List GeneralName) (c : SanColumns) : Prop where
  dns : names.filterMap GeneralName.dnsName? = [] → c.sanDns = none
  ip : names.filterMap GeneralName.ipAddress? = [] → c.sanIp = none
  email : names.filterMap GeneralName.rfc822Name? = [] → c.sanEmail = none
  uri : c.sanUri = none

theorem readBack_signed_iff (h : EmptyWithout names columns) :
    (columns.signed names).ReadBack shown names ↔ InColumnOrder names := by
  have huri : ReadsAs shown (columns.signed names).sanUri [] := by
    have hnone : (columns.signed names).sanUri = none := h.uri
    rw [hnone]
    exact readsAs_none
  rw [readBack_iff_of_readsAs (readsAs_or h.dns) (readsAs_or h.ip) (readsAs_or h.email) huri]
  constructor
  · exact fun hread => hread.2.2.2.2
  · exact fun horder => ⟨rfl, rfl, rfl, horder.uris, horder⟩

end Imported

section Results

open SanColumns

variable [MailLibrary] {F : Type*} [FloatText F] {shown : JsonTree F → String}
  {printable : Char → Bool} {names : List GeneralName} {columns : SanColumns}

theorem emptyWithout_of_write {writer : RequestWriter}
    (h : writer.write printable = .ok (names, columns)) : EmptyWithout names columns := by
  cases writer with
  | generateCsr dns ip =>
    simp only [RequestWriter.write, bind_eq_ok, pure_eq_ok, Prod.mk.injEq] at h
    obtain ⟨_, _, _, rfl⟩ := h
    exact ⟨fun _ => rfl, fun _ => rfl, fun _ => rfl, rfl⟩
  | uploadCsr =>
    cases h
    exact ⟨fun _ => rfl, fun _ => rfl, fun _ => rfl, rfl⟩
  | importCsr =>
    cases h
    exact ⟨fun hnil => if_pos hnil, fun hnil => if_pos hnil, fun hnil => if_pos hnil, rfl⟩
  | smartImport =>
    cases h
    exact ⟨fun hnil => if_pos hnil, fun hnil => if_pos hnil, fun _ => rfl, rfl⟩

theorem readBack_request_iff {writer : RequestWriter}
    (h : writer.write printable = .ok (names, columns)) :
    columns.ReadBack shown names ↔ writer.ReadBackWhen printable := by
  cases writer with
  | generateCsr dns ip =>
    simp only [RequestWriter.write, bind_eq_ok, pure_eq_ok, Prod.mk.injEq] at h
    obtain ⟨made, hmade, rfl, rfl⟩ := h
    rw [readBack_unwritten_iff, TrustStoreService.SanLists.issued_eq_ok hmade]
    simp [TrustStoreService.SanLists.names, RequestWriter.ReadBackWhen]
  | uploadCsr =>
    cases h
    exact readBack_unwritten_iff
  | importCsr =>
    cases h
    exact readBack_importedCsr_iff
  | smartImport =>
    cases h
    exact readBack_smartImport_iff

theorem readBack_signCsr_iff {writer : RequestWriter}
    (h : writer.write printable = .ok (names, columns)) :
    (columns.signed names).ReadBack shown names ↔ writer.SignedReadBackWhen := by
  rw [readBack_signed_iff (emptyWithout_of_write h)]
  cases writer with
  | generateCsr dns ip =>
    simp only [RequestWriter.write, bind_eq_ok, pure_eq_ok, Prod.mk.injEq] at h
    obtain ⟨made, hmade, rfl, _⟩ := h
    rw [TrustStoreService.SanLists.issued_eq_ok hmade]
    refine iff_of_true ⟨dns, ip.map addressText, [], ?_⟩ trivial
    simp [TrustStoreService.SanLists.names, GeneralName.asRead, Function.comp_def]
  | uploadCsr | importCsr | smartImport =>
    cases h
    rfl

omit [MailLibrary] in
theorem map_addressText_iff {texts : List String} :
    texts.map addressText = texts ↔ ∀ ip ∈ texts, addressText ip = ip := by
  have hmap := List.map_inj_left (l := texts) (f := addressText) (g := id)
  rwa [List.map_id] at hmap

theorem readBack_createCertificate_iff {san : TrustStoreService.SanLists}
    (h : san.issued = .ok names) : (ofCreate san).ReadBack shown names ↔
      san.uri = [] ∧ ∀ ip ∈ san.ip, addressText ip = ip := by
  have hnames : names = san.dns.map .dns ++ (san.ip.map addressText).map .ip ++
      san.uri.map .uri ++ san.email.map .email := by
    rw [TrustStoreService.SanLists.issued_eq_ok h]
    simp [TrustStoreService.SanLists.names, GeneralName.asRead, Function.comp_def]
  have hip : names.filterMap GeneralName.ipAddress? = san.ip.map addressText := by
    rw [hnames]
    simp [List.filterMap_append, List.filterMap_map, Function.comp_def, GeneralName.ipAddress?]
  have huri : names.filterMap GeneralName.uri? = san.uri := by
    rw [hnames]
    simp [List.filterMap_append, List.filterMap_map, Function.comp_def, GeneralName.uri?]
  rw [readBack_iff_of_readsAs (readsAs_dumped _) (readsAs_dumped _) (readsAs_dumped _)
    (readsAs_dumped _), ← map_addressText_iff, hip, huri]
  constructor
  · rintro ⟨_, hcanonical, _, _, horder⟩
    exact ⟨huri.symm.trans horder.uris, hcanonical⟩
  · rintro ⟨hnone, hcanonical⟩
    rw [hnone, hcanonical, List.map_nil, List.append_nil] at hnames
    have hread : names.filterMap GeneralName.dnsName? = san.dns ∧
        names.filterMap GeneralName.rfc822Name? = san.email := by
      rw [hnames]
      simp [List.filterMap_append, List.filterMap_map, Function.comp_def, GeneralName.dnsName?,
        GeneralName.rfc822Name?]
    exact ⟨hread.1, hcanonical, hread.2, rfl, _, _, _, hnames⟩

omit [MailLibrary] in
theorem filterMap_ownNames {req : SanRequest} {f : GeneralName → Option String}
    (hnames : names = req.cnNames ++ req.arrayNames ++
      (if req.addsEmail (req.cnNames ++ req.arrayNames) then [.email req.email] else []))
    (h : (names.map GeneralName.asRead).filterMap f =
      (req.arrayNames.map GeneralName.asRead).filterMap f) :
    ((req.ownNames req.arrayNames).map GeneralName.asRead).filterMap f = [] := by
  have hlength := congrArg List.length h
  rw [hnames] at hlength
  rw [SanRequest.ownNames, ← List.length_eq_zero_iff]
  simp only [List.map_append, List.filterMap_append, List.length_append] at hlength ⊢
  omega

omit [MailLibrary] in
theorem ownNames_eq_nil {req : SanRequest}
    (hdns : ((req.ownNames names).map GeneralName.asRead).filterMap GeneralName.dnsName? = [])
    (hemail : ((req.ownNames names).map GeneralName.asRead).filterMap GeneralName.rfc822Name? =
      []) : req.ownNames names = [] := by
  unfold SanRequest.ownNames SanRequest.cnNames at *
  split_ifs at * <;>
    simp_all [GeneralName.asRead, GeneralName.dnsName?, GeneralName.rfc822Name?]

theorem readBack_createRoute_iff {req : SanRequest} (h : req.sanNames = .ok names) :
    (ofRoute req.typed).ReadBack shown (names.map GeneralName.asRead) ↔
      req.typed.ownNames req.typed.arrayNames = [] ∧ req.sanUri = [] ∧
        ∀ ip ∈ req.typed.sanIp, addressText ip = ip := by
  simp only [SanRequest.sanNames, bind_eq_ok] at h
  obtain ⟨arrays, harrays, hown⟩ := h
  have hnames := SanRequest.addOwnNames_eq hown
  rw [SanRequest.sanList_eq_ok harrays] at hnames
  have hread : req.typed.arrayNames.map GeneralName.asRead =
      req.typed.sanDns.map .dns ++ (req.typed.sanIp.map addressText).map .ip ++
        req.typed.sanEmail.map .email ++ req.sanUri.map .uri := by
    simp [SanRequest.arrayNames, SanRequest.typed, GeneralName.asRead, Function.comp_def]
  have htypes :
      (req.typed.arrayNames.map GeneralName.asRead).filterMap GeneralName.dnsName? =
        req.typed.sanDns ∧
      (req.typed.arrayNames.map GeneralName.asRead).filterMap GeneralName.ipAddress? =
        req.typed.sanIp.map addressText ∧
      (req.typed.arrayNames.map GeneralName.asRead).filterMap GeneralName.rfc822Name? =
        req.typed.sanEmail ∧
      (req.typed.arrayNames.map GeneralName.asRead).filterMap GeneralName.uri? = req.sanUri := by
    rw [hread]
    simp [List.filterMap_append, List.filterMap_map, Function.comp_def, GeneralName.dnsName?,
      GeneralName.ipAddress?, GeneralName.rfc822Name?, GeneralName.uri?]
  obtain ⟨hdns, hip, hemail, huri⟩ := htypes
  have halone (hnone : req.typed.ownNames req.typed.arrayNames = []) :
      names = req.typed.arrayNames := by
    obtain ⟨hcn, hlast⟩ := List.append_eq_nil_iff.mp hnone
    rw [hnames, hlast, hcn, List.nil_append, List.append_nil]
  rw [readBack_iff_of_readsAs (readsAs_dumpsTexts _) (readsAs_dumpsTexts _) (readsAs_dumpsTexts _)
    readsAs_none, ← map_addressText_iff]
  constructor
  · rintro ⟨hdns', hip', hemail', _, horder⟩
    have hnone := ownNames_eq_nil (filterMap_ownNames hnames (hdns'.trans hdns.symm))
      (filterMap_ownNames hnames (hemail'.trans hemail.symm))
    rw [halone hnone] at hip' horder
    exact ⟨hnone, huri.symm.trans horder.uris, hip.symm.trans hip'⟩
  · rintro ⟨hnone, hnoUri, hcanonical⟩
    rw [halone hnone, hdns, hip, hemail, huri]
    have horder : InColumnOrder (req.typed.arrayNames.map GeneralName.asRead) := by
      rw [hread, hnoUri, List.map_nil, List.append_nil]
      exact ⟨_, _, _, rfl⟩
    exact ⟨rfl, hcanonical, rfl, hnoUri, horder⟩

/-- The names of a certificate or request are read back from its row exactly as the writer and the
names say. -/
theorem SanWriter.names_readBack_iff {writer : SanWriter}
    (h : writer.write printable = .ok (names, columns)) :
    columns.ReadBack shown names ↔ writer.ReadBackWhen printable := by
  cases writer with
  | request writer => exact readBack_request_iff h
  | signCsr writer =>
    simp only [SanWriter.write, bind_eq_ok, pure_eq_ok] at h
    obtain ⟨⟨names', columns'⟩, hwrite, heq⟩ := h
    cases heq
    exact readBack_signCsr_iff hwrite
  | createRoute req =>
    simp only [SanWriter.write, bind_eq_ok, pure_eq_ok] at h
    obtain ⟨made, hmade, heq⟩ := h
    cases heq
    exact readBack_createRoute_iff hmade
  | createCertificate san =>
    simp only [SanWriter.write, bind_eq_ok, pure_eq_ok] at h
    obtain ⟨made, hmade, heq⟩ := h
    cases heq
    exact readBack_createCertificate_iff hmade
  | importCertificate names' =>
    cases h
    exact readBack_importedCertificate_iff
  | importFile names' =>
    cases h
    exact readBack_unwritten_iff
  | smartImport names' =>
    cases h
    exact readBack_smartImport_iff

end Results

section Samples

open SanColumns

/-- A certificate with a domain and an address in this order is read back when it is imported. -/
theorem names_readBack_imported :
    let _ := SanRequest.plainMail
    ReadBack (F := Empty) (fun _ => "") [.dns "it's", .ip "10.0.0.1"]
      (ofImportedCertificate [.dns "it's", .ip "10.0.0.1"]) := by
  intro mail
  have hwrite : (SanWriter.importCertificate [.dns "it's", .ip "10.0.0.1"]).write (fun _ => true) =
      .ok ([.dns "it's", .ip "10.0.0.1"],
        ofImportedCertificate [.dns "it's", .ip "10.0.0.1"]) := rfl
  exact (SanWriter.names_readBack_iff hwrite).mpr ⟨["it's"], ["10.0.0.1"], [], rfl⟩

/-- A request with the name of one domain has no names in its row after it is imported. -/
theorem importedCsr_not_readBack :
    let _ := SanRequest.plainMail
    (SanWriter.request (.importCsr [.dns "example.com"])).write (fun _ => true) =
        .ok ([.dns "example.com"], { sanDns := some "['example.com']" }) ∧
      ¬ ReadBack (F := Empty) (fun _ => "") [.dns "example.com"]
        { sanDns := some "['example.com']" } := by
  intro mail
  constructor
  · rfl
  · intro h
    have hunread : (loads "['example.com']" : Option (JsonTree Empty)) = none := rfl
    have hempty : listOf (some "['example.com']") = (array [] : JsonTree Empty) := by
      rw [listOf, hunread, Option.getD_none, ite_self]
    have hdns := h.dns.symm.trans hempty
    rw [array.injEq] at hdns
    cases hdns

end Samples

end CaManager
