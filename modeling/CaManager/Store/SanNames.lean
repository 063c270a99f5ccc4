import CaManager.Store.SanEntries

/-!
# The alternative names of a request

The create route finds names in the entries of a request, unless the request has an array of
domains. A second pass makes the names of the certificate from the arrays, and adds the common name
and the address of the subject where the kind of certificate has such names.
-/

namespace CaManager

open Library

/-- The standard library's reader of mail addresses: a display name and an address. -/
class MailLibrary where
  parseaddr : String → String × String

/-- The member `san` of a request. -/
inductive SanField
  | text (san : String)
  | entries (san : List String)
  deriving Repr, DecidableEq

/-- The members of a create request that its alternative names are made of. An array that is
missing is empty. -/
structure SanRequest where
  cn : String
  certType : String := "server"
  email : String := ""
  san : Option SanField := none
  sanDns : List String := []
  sanIp : List String := []
  sanEmail : List String := []
  sanUri : List String := []
  deriving Repr, DecidableEq

namespace SanRequest

open SanEntries

section Route

variable (req : SanRequest)

/-- `san_raw`, if there is one and no array of domains takes its place. -/
def sanRaw : Option String :=
  if req.sanDns = [] then
    match req.san with
    | some (.text san) => some san
    | some (.entries san) => some (",".intercalate san)
    | none => none
  else none

def foundNames : List GeneralName :=
  match req.sanRaw with
  | some san => parsedNames san.toList
  | none => []

def found (kind : GeneralName → Option String) (given : List String) : List String :=
  let texts := req.foundNames.filterMap kind
  if texts = [] then given else texts

def typed : SanRequest :=
  { req with
    sanDns := req.found GeneralName.dnsName? req.sanDns
    sanIp := req.found GeneralName.ipAddress? req.sanIp
    sanEmail := req.found GeneralName.rfc822Name? req.sanEmail }

def asciiName (type : SanType) (text : String) : Except PyError GeneralName := do
  ensure (text.toList.all fun c => c.toNat < 128) (.valueError "values should be passed as ASCII")
  return nameOfType type text

def ipName (text : String) : Except PyError GeneralName := do
  ensure (ipAddressOfText text).isSome
    (.valueError ("'" ++ text ++ "' does not appear to be an IPv4 or IPv6 address"))
  return .ip text

def rfc822Name [MailLibrary] (text : String) : Except PyError GeneralName := do
  let name ← asciiName .email text
  ensure ((MailLibrary.parseaddr text).1 = "" ∧ (MailLibrary.parseaddr text).2 ≠ "")
    (.valueError "Invalid rfc822name value")
  return name

def sanList [MailLibrary] : Except PyError (List GeneralName) := do
  let dns ← req.sanDns.mapM (asciiName .dns)
  let ip ← req.sanIp.mapM ipName
  let email ← req.sanEmail.mapM rfc822Name
  let uri ← req.sanUri.mapM (asciiName .uri)
  return dns ++ ip ++ email ++ uri

def cnLooksLikeHostname : Bool := '.' ∈ req.cn.toList || startsWith req.cn "*"

def cnLooksLikeEmail : Bool :=
  '@' ∈ req.cn.toList && '.' ∈ ((splitText '@' req.cn).getLastD "").toList

def addsCnDns : Bool :=
  req.certType ∈ ["server", "combined"] && req.cnLooksLikeHostname && req.cn ∉ req.sanDns

def addsCnEmail : Bool :=
  req.certType ∈ ["email", "combined"] && req.cnLooksLikeEmail && req.cn ∉ req.sanEmail

def addsEmail (names : List GeneralName) : Bool :=
  req.certType ∈ ["email", "combined"] && '@' ∈ req.email.toList && req.email ≠ req.cn &&
    req.email ∉ req.sanEmail && req.email ∉ names.filterMap GeneralName.rfc822Name?

def inFront (asked : Bool) (name : Except PyError GeneralName) (names : List GeneralName) :
    Except PyError (List GeneralName) :=
  if asked then (· :: names) <$> name else .ok names

def addOwnNames [MailLibrary] (names : List GeneralName) : Except PyError (List GeneralName) := do
  let names ← inFront req.addsCnDns (asciiName .dns req.cn) names
  let names ← inFront req.addsCnEmail (rfc822Name req.cn) names
  if req.addsEmail names then (names ++ [·]) <$> rfc822Name req.email else .ok names

/-- `san_list`, the alternative names of the certificate. -/
def sanNames [MailLibrary] : Except PyError (List GeneralName) := do
  let names ← req.typed.sanList
  req.typed.addOwnNames names

end Route

section Arrays

variable {req : SanRequest} {names out : List GeneralName} {type : SanType} {text : String}
  {name : GeneralName} [MailLibrary]

def arrayNames (req : SanRequest) : List GeneralName :=
  req.sanDns.map .dns ++ req.sanIp.map .ip ++ req.sanEmail.map .email ++ req.sanUri.map .uri

omit [MailLibrary] in
theorem asciiName_eq_ok (h : asciiName type text = .ok name) : name = nameOfType type text := by
  simp only [asciiName, bind_eq_ok, pure_eq_ok] at h
  obtain ⟨_, _, h⟩ := h
  exact h.symm

omit [MailLibrary] in
theorem ipName_eq_ok (h : ipName text = .ok name) : name = .ip text := by
  simp only [ipName, bind_eq_ok, pure_eq_ok] at h
  obtain ⟨_, _, h⟩ := h
  exact h.symm

theorem rfc822Name_eq_ok (h : rfc822Name text = .ok name) : name = .email text := by
  simp only [rfc822Name, bind_eq_ok, pure_eq_ok] at h
  obtain ⟨_, hname, _, _, rfl⟩ := h
  exact asciiName_eq_ok hname

omit [MailLibrary] in
theorem map_of_mapM {f : String → Except PyError GeneralName} {g : String → GeneralName}
    (hf : ∀ text name, f text = .ok name → name = g text) {texts : List String}
    (h : texts.mapM f = .ok names) : names = texts.map g := by
  induction texts generalizing names with
  | nil =>
    rw [List.mapM_nil, pure_eq_ok] at h
    exact h.symm
  | cons text texts ih =>
    simp only [List.mapM_cons, bind_eq_ok, pure_eq_ok] at h
    obtain ⟨name, hname, rest, hrest, rfl⟩ := h
    rw [List.map_cons, hf text name hname, ih hrest]

theorem sanList_eq_ok (h : req.sanList = .ok names) : names = req.arrayNames := by
  simp only [sanList, bind_eq_ok, pure_eq_ok] at h
  obtain ⟨dns, hdns, ip, hip, email, hemail, uri, huri, rfl⟩ := h
  rw [arrayNames, map_of_mapM (fun _ _ => asciiName_eq_ok) hdns,
    map_of_mapM (fun _ _ => ipName_eq_ok) hip, map_of_mapM (fun _ _ => rfc822Name_eq_ok) hemail,
    map_of_mapM (fun _ _ => asciiName_eq_ok) huri]
  rfl

def cnNames (req : SanRequest) : List GeneralName :=
  (if req.addsCnEmail then [.email req.cn] else []) ++ (if req.addsCnDns then [.dns req.cn] else [])

def ownNames (req : SanRequest) (names : List GeneralName) : List GeneralName :=
  req.cnNames ++ (if req.addsEmail (req.cnNames ++ names) then [.email req.email] else [])

omit [MailLibrary] in
theorem inFront_eq_ok {asked : Bool} {made : Except PyError GeneralName}
    (hmade : ∀ name', made = .ok name' → name' = name)
    (h : inFront asked made names = .ok out) : out = (if asked then [name] else []) ++ names := by
  unfold inFront at h
  split_ifs at h ⊢
  · obtain ⟨name', hname', rfl⟩ := map_eq_ok.mp h
    rw [hmade name' hname']
    rfl
  · exact (Except.ok.inj h).symm

theorem addOwnNames_perm (h : req.addOwnNames names = .ok out) :
    out.Perm (names ++ req.ownNames names) := by
  simp only [addOwnNames, bind_eq_ok] at h
  obtain ⟨withDns, hdns, withCn, hemail, h⟩ := h
  have hcn : withCn = req.cnNames ++ names := by
    rw [inFront_eq_ok (fun _ => rfc822Name_eq_ok) hemail,
      inFront_eq_ok (fun _ => asciiName_eq_ok) hdns, cnNames, List.append_assoc]
    rfl
  rw [hcn] at h
  rw [ownNames, ← List.append_assoc]
  have hswap : (req.cnNames ++ names).Perm (names ++ req.cnNames) := List.perm_append_comm
  split_ifs at h ⊢
  · obtain ⟨name, hname, rfl⟩ := map_eq_ok.mp h
    rw [rfc822Name_eq_ok hname]
    exact hswap.append_right _
  · rw [List.append_nil, ← Except.ok.inj h]
    exact hswap

end Arrays

section Found

variable {req : SanRequest} {name : GeneralName}

def left (req : SanRequest) (kind : GeneralName → Option String) (given : List String) :
    List String :=
  if req.foundNames.filterMap kind = [] then given else []

def leftNames (req : SanRequest) : List GeneralName :=
  (req.left GeneralName.dnsName? req.sanDns).map .dns ++
    (req.left GeneralName.ipAddress? req.sanIp).map .ip ++
    (req.left GeneralName.rfc822Name? req.sanEmail).map .email ++ req.sanUri.map .uri

theorem found_eq (kind : GeneralName → Option String) (given : List String) :
    req.found kind given = req.foundNames.filterMap kind ++ req.left kind given := by
  unfold found left
  split_ifs with h <;> simp [h]

theorem of_mem_foundNames (h : name ∈ req.foundNames) :
    ∃ text, name = .dns text ∨ name = .ip text ∨ name = .email text := by
  unfold foundNames at h
  split at h
  · obtain ⟨value, -, -, rfl⟩ := of_mem_parsedNames h
    refine ⟨String.ofList value, ?_⟩
    have huri := detectedType_ne_uri (String.ofList value)
    cases htype : detectedType (String.ofList value) with
    | dns => exact .inl rfl
    | ip => exact .inr (.inl rfl)
    | email => exact .inr (.inr rfl)
    | uri => exact absurd htype huri
  · cases h

theorem perm_of_types {names : List GeneralName}
    (h : ∀ name ∈ names, ∃ text, name = .dns text ∨ name = .ip text ∨ name = .email text) :
    ((names.filterMap GeneralName.dnsName?).map GeneralName.dns ++
      (names.filterMap GeneralName.ipAddress?).map GeneralName.ip ++
      (names.filterMap GeneralName.rfc822Name?).map GeneralName.email).Perm names := by
  induction names with
  | nil => exact .nil
  | cons name names ih =>
    obtain ⟨⟨text, hname⟩, hnames⟩ := List.forall_mem_cons.mp h
    have hrest := ih hnames
    rcases hname with rfl | rfl | rfl
    · exact hrest.cons _
    · simp only [List.filterMap_cons, GeneralName.dnsName?, GeneralName.ipAddress?,
        GeneralName.rfc822Name?, List.map_cons, List.append_assoc, List.cons_append] at hrest ⊢
      exact List.perm_middle.trans (hrest.cons _)
    · simp only [List.filterMap_cons, GeneralName.dnsName?, GeneralName.ipAddress?,
        GeneralName.rfc822Name?, List.map_cons] at hrest ⊢
      exact List.perm_middle.trans (hrest.cons _)

theorem arrayNames_typed_perm (req : SanRequest) :
    req.typed.arrayNames.Perm (req.foundNames ++ req.leftNames) := by
  have htypes : ∀ name ∈ req.foundNames, ∃ text,
      name = .dns text ∨ name = .ip text ∨ name = .email text :=
    fun name hname => of_mem_foundNames hname
  have hfound := perm_of_types htypes
  refine List.Perm.trans ?_ (hfound.append_right _)
  unfold arrayNames leftNames typed
  simp only [found_eq, List.map_append]
  rw [List.perm_iff_count]
  intro name
  simp only [List.count_append]
  omega

end Found

section Kept

variable [MailLibrary] {req : SanRequest} {entries : List String} {names : List GeneralName}

def otherNames (req : SanRequest) : List GeneralName :=
  req.leftNames ++ req.typed.ownNames req.typed.arrayNames

/-- Each entry is in the certificate once, with the type that it states. -/
structure EntriesKept (req : SanRequest) (entries : List String) (names : List GeneralName) :
    Prop where
  names : names.Perm (entries.map stated ++ req.otherNames)
  once : ∀ name ∈ req.otherNames, name ∉ entries.map stated

theorem sanNames_perm (h : req.sanNames = .ok names) :
    names.Perm (req.foundNames ++ req.otherNames) := by
  simp only [sanNames, bind_eq_ok] at h
  obtain ⟨arrays, harrays, hown⟩ := h
  have hperm := addOwnNames_perm hown
  rw [sanList_eq_ok harrays] at hperm
  refine hperm.trans ?_
  rw [otherNames, ← List.append_assoc]
  exact (arrayNames_typed_perm req).append_right _

end Kept

section Others

variable {req : SanRequest} {names : List GeneralName}

theorem notMem_of_left {kind : GeneralName → Option String} {make : String → GeneralName}
    (hkind : ∀ text, kind (make text) = some text) {given : List String} {text : String}
    (h : text ∈ req.left kind given) : make text ∉ req.foundNames := by
  unfold left at h
  split_ifs at h with hnone
  · intro hmem
    have hin : text ∈ req.foundNames.filterMap kind :=
      List.mem_filterMap.mpr ⟨make text, hmem, hkind text⟩
    rw [hnone] at hin
    cases hin
  · cases h

theorem notMem_of_found {kind : GeneralName → Option String} {make : String → GeneralName}
    (hkind : ∀ text, kind (make text) = some text) {given : List String} {text : String}
    (h : text ∉ req.found kind given) : make text ∉ req.foundNames := by
  intro hmem
  rw [found_eq] at h
  exact h (List.mem_append_left _ (List.mem_filterMap.mpr ⟨make text, hmem, hkind text⟩))

theorem notMem_of_leftNames {name : GeneralName} (h : name ∈ req.leftNames) :
    name ∉ req.foundNames := by
  simp only [leftNames, List.mem_append, List.mem_map] at h
  rcases h with ((⟨text, htext, rfl⟩ | ⟨text, htext, rfl⟩) | ⟨text, htext, rfl⟩) |
    ⟨text, -, rfl⟩
  · exact notMem_of_left (fun _ => rfl) htext
  · exact notMem_of_left (fun _ => rfl) htext
  · exact notMem_of_left (fun _ => rfl) htext
  · intro hmem
    obtain ⟨text', hname⟩ := of_mem_foundNames hmem
    rcases hname with hname | hname | hname <;> cases hname

theorem notMem_of_ownNames {name : GeneralName} (h : name ∈ req.typed.ownNames names) :
    name ∉ req.foundNames := by
  rcases List.mem_append.mp h with h | h
  · simp only [cnNames, List.mem_append, List.mem_ite_nil_right, List.mem_singleton] at h
    rcases h with ⟨hadds, rfl⟩ | ⟨hadds, rfl⟩
    · simp only [addsCnEmail, Bool.and_eq_true, decide_eq_true_eq] at hadds
      exact notMem_of_found (fun _ => rfl) hadds.2
    · simp only [addsCnDns, Bool.and_eq_true, decide_eq_true_eq] at hadds
      exact notMem_of_found (fun _ => rfl) hadds.2
  · obtain ⟨hadds, hname⟩ := List.mem_ite_nil_right.mp h
    rw [List.mem_singleton.mp hname]
    simp only [addsEmail, Bool.and_eq_true, decide_eq_true_eq] at hadds
    exact notMem_of_found (fun _ => rfl) hadds.1.2

theorem notMem_of_otherNames {name : GeneralName} (h : name ∈ req.otherNames) :
    name ∉ req.foundNames := by
  rcases List.mem_append.mp h with h | h
  · exact notMem_of_leftNames h
  · exact notMem_of_ownNames h

end Others

section Result

variable {req : SanRequest} {entries : List String} {names : List GeneralName}

theorem foundNames_of_entries (hsan : req.san = some (.entries entries)) :
    req.foundNames =
      if req.sanDns = [] then entries.flatMap fun entry => parsedNames entry.toList else [] := by
  unfold foundNames sanRaw
  rw [hsan]
  split_ifs
  · exact parsedNames_join entries
  · rfl

/-- The names that are found are those that the entries state, exactly if no array of domains is
given and each entry is understood. -/
theorem foundNames_perm_iff (hsan : req.san = some (.entries entries)) :
    req.foundNames.Perm (entries.map stated) ↔
      entries = [] ∨ req.sanDns = [] ∧ ∀ entry ∈ entries, Understood entry := by
  rw [foundNames_of_entries hsan]
  split_ifs with hdns
  · rw [flatMap_perm_iff]
    constructor
    · exact fun h => .inr ⟨hdns, h⟩
    · rintro (rfl | ⟨-, h⟩)
      · simp
      · exact h
  · rw [List.nil_perm, List.map_eq_nil_iff]
    simp [hdns]

variable [MailLibrary]

/-- Each entry of a request is in the certificate once, with the type that it states, exactly if the
request has no array of domains and each entry is understood. -/
theorem entriesKept_iff (hsan : req.san = some (.entries entries)) (h : req.sanNames = .ok names) :
    EntriesKept req entries names ↔
      entries = [] ∨ req.sanDns = [] ∧ ∀ entry ∈ entries, Understood entry := by
  rw [← foundNames_perm_iff hsan]
  have hnames := sanNames_perm h
  constructor
  · intro hkept
    exact (List.perm_append_right_iff _).mp (hnames.symm.trans hkept.names)
  · intro hfound
    refine ⟨hnames.trans (hfound.append_right _), ?_⟩
    intro name hname hmem
    exact notMem_of_otherNames hname (hfound.mem_iff.mpr hmem)

end Result

section Sample

@[reducible] def plainMail : MailLibrary where
  parseaddr text := ("", text)

/-- Two entries that are understood, beside the common name. -/
theorem entriesKept_plain :
    let _ := plainMail
    EntriesKept { cn := "www.example.com", san := some (.entries ["DNS:example.com", "10.0.0.1"]) }
      ["DNS:example.com", "10.0.0.1"]
      [.dns "www.example.com", .dns "example.com", .ip "10.0.0.1"] := by
  intro mail
  refine (entriesKept_iff rfl (by decide +kernel)).mpr (.inr ⟨rfl, ?_⟩)
  intro entry hentry
  simp only [List.mem_cons, List.not_mem_nil, or_false] at hentry
  rcases hentry with rfl | rfl
  · exact ⟨by decide +kernel, List.all_iff_forall_prop.mp (by decide +kernel), by decide +kernel,
      fun _ => by decide +kernel⟩
  · exact ⟨by decide +kernel, List.all_iff_forall_prop.mp (by decide +kernel), by decide +kernel,
      fun _ => by decide +kernel⟩

/-- An entry with the type of a resource becomes the name of a host. -/
theorem uri_not_kept :
    let _ := plainMail
    sanNames { cn := "www.example.com", san := some (.entries ["URI:https://example.com/a"]) } =
        .ok [.dns "www.example.com", .dns "https://example.com/a"] ∧
      ¬ EntriesKept
        { cn := "www.example.com", san := some (.entries ["URI:https://example.com/a"]) }
        ["URI:https://example.com/a"] [.dns "www.example.com", .dns "https://example.com/a"] := by
  intro mail
  constructor
  · decide +kernel
  · intro h
    have hstated : stated "URI:https://example.com/a" = .uri "https://example.com/a" := by
      decide +kernel
    have hmem := h.names.mem_iff.mpr (List.mem_append_left _ List.mem_cons_self)
    rw [hstated] at hmem
    revert hmem
    decide

end Sample

end SanRequest

end CaManager
