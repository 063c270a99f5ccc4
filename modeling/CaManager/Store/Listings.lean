import CaManager.Accounts.Rows
import CaManager.Library.Paging
import CaManager.Store.StatusClasses
import Mathlib.Data.String.Basic
import Mathlib.Order.WithBot

/-!
# Paged lists of certificates

The list of user certificates and the list of certificates are read page by page. Each request is a
query of its own, which sorts by one column, so rows that agree in it come in any order. The list
of certificates filters in its query. The other list cuts its page first and then drops from it
what the status filter does not let pass.
-/

namespace CaManager

open Library

namespace Listings

open CertificateStatus (StatusColumns Status)

/-- The arguments of a list request, as they are read from its query string. -/
structure ListRequest where
  page : ℤ := 1
  perPage : ℤ
  status : Option String := none
  ownerId : Option ℤ := none
  search : String := ""
  sortBy : String
  sortOrder : String
  deriving Repr, DecidableEq

structure Listing (Row : Type*) where
  items : List Row
  total : ℕ
  page : ℤ
  perPage : ℤ
  pages : ℕ
  deriving Repr, DecidableEq

/-- The rows of one page of a sorted answer. Numbers below one become the defaults. -/
def paginate {Row : Type*} (answer : List Row) (page perPage : ℤ) : Listing Row :=
  let page := if page < 1 then 1 else page
  let perPage := if perPage < 1 then 20 else perPage
  { items := pageOf perPage.toNat (page - 1).toNat answer
    total := answer.length
    page := page
    perPage := perPage
    pages := pageCount perPage.toNat answer.length }

def nullsFirst {κ : Type*} (v : Option κ) : WithBot κ := v.elim ⊥ (↑)

/-- What every listing of a filter should come to: all the rows that satisfy it, counted, on pages
that are full but for the last. -/
structure Complete {Row : Type*} (rows : List Row) (perPage : ℕ) (items : ℕ → List Row)
    (total : ℕ → ℕ) : Prop where
  total : ∀ k, total k = rows.length
  perm : ((List.range (pageCount perPage rows.length)).flatMap items).Perm rows
  full : ∀ k, k + 1 < pageCount perPage rows.length → (items k).length = perPage

section UserCertificates

/-- An enrolled client certificate with the column that the list sorts by. -/
structure UserCertificate extends AuthCertificate where
  createdAt : Option Time
  deriving Repr, DecidableEq

instance : Keyed UserCertificate :=
  ⟨fun a => a.id, fun k a => { a with id := k }, fun _ _ => rfl, fun _ => rfl⟩

/-- The tables that the list and the statistics read. Of a certificate they read the serial number
and what its status depends on. -/
structure UserTables where
  authCertificates : Table UserCertificate
  certificates : List (Option String × StatusColumns)

def isAdminOrOperator (user : User) : Bool := user.role = "admin" || user.role = "operator"

def isAuditor (user : User) : Bool := user.role = "auditor"

/-- `_get_certificate_for_auth_cert` -/
def getCertificateForAuthCert (tables : UserTables) (ac : UserCertificate) :
    Option StatusColumns :=
  (tables.certificates.find? fun c => c.1 = some ac.certSerial).map Prod.snd

variable (ilike : Option Char → String → String → Bool)

def userRows (tables : UserTables) (user : User) (request : ListRequest) :
    List UserCertificate :=
  let search := stripSpaces request.search
  let pattern := "%" ++ search ++ "%"
  tables.authCertificates.rows.filter fun ac =>
    (if !isAdminOrOperator user && !isAuditor user then ac.userId = user.id
      else request.ownerId.all fun owner => owner = 0 || owner = (ac.userId : ℤ)) &&
    (search = "" || ac.name.any (ilike none pattern) || ilike none pattern ac.certSubject ||
      ilike none pattern ac.certSerial)

def userOrder (request : ListRequest) : SortOrder UserCertificate :=
  let sortCol : SortOrder UserCertificate :=
    match request.sortBy with
    | "name" => .onKey fun ac => nullsFirst ac.name
    | "valid_until" => .onKey fun ac => nullsFirst ac.validUntil
    | "last_used_at" => .onKey fun ac => nullsFirst ac.lastUsedAt
    | _ => .onKey fun ac => nullsFirst ac.createdAt
  if request.sortOrder = "asc" then sortCol else sortCol.reverse

/-- Is a row kept by the status filter? A row without a certificate is, and so is every row for a
status that is not known. -/
def kept (now : Time) (status : Option String) (cert : Option StatusColumns) : Bool :=
  match status, cert with
  | some status, some cert =>
    let revoked := cert.revoked = some true
    match status with
    | "revoked" => revoked
    | "expired" => cert.validTo.any (· ≤ now) && !revoked
    | "valid" => cert.validTo.any (now < ·) && !revoked
    | "expiring" => cert.validTo.any (fun v => now < v && v ≤ now + days 30) && !revoked
    | _ => true
  | _, _ => true

/-- `list_user_certificates`, where `answer` is what the sorted query gives to this request. -/
def listUserCertificates (tables : UserTables) (now : Time) (request : ListRequest)
    (answer : List UserCertificate) : Listing UserCertificate :=
  let perPage := min request.perPage 100
  let pagination := paginate answer request.page perPage
  { items := pagination.items.filter fun ac =>
      kept now request.status (getCertificateForAuthCert tables ac)
    total := pagination.total
    page := request.page
    perPage := perPage
    pages := pagination.pages }

def countedAs (now : Time) (cert : StatusColumns) : Status :=
  if cert.revoked = some true then .revoked
  else if cert.validTo.any (· ≤ now) then .expired
  else if cert.validTo.any (· ≤ now + days 30) then .expiring
  else .valid

structure UserStats where
  total : ℕ
  counts : Status → ℕ
  users : Option ℕ

/-- `get_user_certificate_stats` -/
def getUserCertificateStats (tables : UserTables) (user : User) (now : Time) : UserStats :=
  let own := !isAdminOrOperator user && !isAuditor user
  let authCerts := tables.authCertificates.rows.filter fun ac => !own || ac.userId = user.id
  { total := authCerts.length
    counts := fun status => authCerts.countP fun ac =>
      (getCertificateForAuthCert tables ac).any fun cert => countedAs now cert = status
    users := if own then none
      else some (tables.authCertificates.rows.map (·.userId)).dedup.length }

/-- The rows on a page that has so many of them, for a request of this size. -/
def pageSize (perPage : ℤ) : ℕ :=
  if min perPage 100 < 1 then 20 else (min perPage 100).toNat

def satisfying (tables : UserTables) (user : User) (now : Time) (request : ListRequest) :
    List UserCertificate :=
  (userRows ilike tables user request).filter fun ac =>
    kept now request.status (getCertificateForAuthCert tables ac)

def userPage (tables : UserTables) (now : Time) (request : ListRequest)
    (answers : ℕ → List UserCertificate) (k : ℕ) : Listing UserCertificate :=
  listUserCertificates tables now { request with page := k + 1 } (answers k)

def statusOfText : String → Option Status
  | "valid" => some .valid
  | "expiring" => some .expiring
  | "expired" => some .expired
  | "revoked" => some .revoked
  | _ => none

def Unrestricted (user : User) (request : ListRequest) : Prop :=
  stripSpaces request.search = "" ∧
    ((!isAdminOrOperator user && !isAuditor user) = true ∨ ∀ owner ∈ request.ownerId, owner = 0)

/-- Whatever the queries for the pages give, the pages are a complete list of what satisfies the
filter. -/
def UserPagesComplete (tables : UserTables) (user : User) (now : Time) (request : ListRequest) :
    Prop :=
  ∀ answers : ℕ → List UserCertificate,
    (∀ k, Arranged (userOrder request) (userRows ilike tables user request) (answers k)) →
    Complete (satisfying ilike tables user now request) (pageSize request.perPage)
      (fun k => (userPage tables now request answers k).items)
      (fun k => (userPage tables now request answers k).total)

def returned (tables : UserTables) (user : User) (now : Time) (request : ListRequest)
    (answers : ℕ → List UserCertificate) : ℕ :=
  ((List.range (pageCount (pageSize request.perPage)
    (userRows ilike tables user request).length)).flatMap fun k =>
      (userPage tables now request answers k).items).length

/-- The statistics count as many rows as the list returns, for each status and for no filter. -/
def StatsAgree (tables : UserTables) (user : User) (now : Time) (request : ListRequest) : Prop :=
  Unrestricted user request → ∀ answers : ℕ → List UserCertificate,
    (∀ k, Arranged (userOrder request) (userRows ilike tables user request) (answers k)) →
    (request.status = none → returned ilike tables user now request answers =
      (getUserCertificateStats tables user now).total) ∧
    ∀ status, request.status.bind statusOfText = some status →
      returned ilike tables user now request answers =
        (getUserCertificateStats tables user now).counts status

variable {ilike} {tables : UserTables} {user : User} {now : Time} {request : ListRequest}
  {answers : ℕ → List UserCertificate}

theorem pageSize_pos (perPage : ℤ) : 0 < pageSize perPage := by
  unfold pageSize
  split
  · decide
  · omega

theorem paginate_page {Row : Type*} (answer : List Row) (k : ℕ) (perPage : ℤ) :
    (paginate answer (k + 1) (min perPage 100)).items = pageOf (pageSize perPage) k answer ∧
      (paginate answer (k + 1) (min perPage 100)).total = answer.length := by
  have hpage : ¬ ((k : ℤ) + 1 < 1) := by omega
  have hk : ((k : ℤ) + 1 - 1).toNat = k := by omega
  have hsize : (if min perPage 100 < 1 then (20 : ℤ) else min perPage 100).toNat =
      pageSize perPage := by
    unfold pageSize
    split <;> rfl
  simp only [paginate, if_neg hpage, hk, hsize, and_self]

theorem items_userPage (k : ℕ) : (userPage tables now request answers k).items =
    (pageOf (pageSize request.perPage) k (answers k)).filter fun ac =>
      kept now request.status (getCertificateForAuthCert tables ac) := by
  rw [userPage, listUserCertificates]
  simp only [(paginate_page (answers k) k request.perPage).1]

theorem total_userPage (k : ℕ) :
    (userPage tables now request answers k).total = (answers k).length :=
  (paginate_page (answers k) k request.perPage).2

theorem nodup_userRows : (userRows ilike tables user request).Nodup := by
  have hrows := tables.authCertificates.sorted.imp fun h => h.ne
  exact (List.Nodup.of_map _ hrows).filter _

theorem items_userPage_of_kept (hkept : ∀ ac ∈ userRows ilike tables user request,
      kept now request.status (getCertificateForAuthCert tables ac) = true)
    {k : ℕ} (h : Arranged (userOrder request) (userRows ilike tables user request) (answers k)) :
    (userPage tables now request answers k).items =
      pageOf (pageSize request.perPage) k (answers k) := by
  rw [items_userPage, List.filter_eq_self]
  intro ac hac
  exact hkept ac (h.perm.subset (List.mem_of_mem_drop (List.mem_of_mem_take hac)))

theorem userPagesComplete_iff : UserPagesComplete ilike tables user now request ↔
    (∀ ac ∈ userRows ilike tables user request,
      kept now request.status (getCertificateForAuthCert tables ac) = true) ∧
    CleanBreaks (userOrder request) (pageSize request.perPage)
      (userRows ilike tables user request) := by
  have hpos := pageSize_pos request.perPage
  constructor
  · intro hall
    obtain ⟨answer, hanswer⟩ :=
      exists_arranged (userOrder request) (userRows ilike tables user request)
    have hkept : ∀ ac ∈ userRows ilike tables user request,
        kept now request.status (getCertificateForAuthCert tables ac) = true := by
      have htotal := (hall (fun _ => answer) fun _ => hanswer).total 0
      rw [total_userPage, hanswer.length_eq, satisfying] at htotal
      exact List.length_filter_eq_length_iff.mp htotal.symm
    have hsatisfying : satisfying ilike tables user now request =
        userRows ilike tables user request := List.filter_eq_self.mpr hkept
    refine ⟨hkept, (pages_perm_iff hpos nodup_userRows).mp ?_⟩
    intro answers hanswers
    have hperm := (hall answers hanswers).perm
    rw [hsatisfying] at hperm
    rw [← List.flatMap_congr fun k _ => items_userPage_of_kept hkept (hanswers k)]
    exact hperm
  · intro hcond answers hanswers
    obtain ⟨hkept, hbreaks⟩ := hcond
    have hsatisfying : satisfying ilike tables user now request =
        userRows ilike tables user request := List.filter_eq_self.mpr hkept
    rw [hsatisfying]
    constructor
    · intro k
      rw [total_userPage, (hanswers k).length_eq]
    · rw [List.flatMap_congr fun k _ => items_userPage_of_kept hkept (hanswers k)]
      exact (pages_perm_iff hpos nodup_userRows).mpr hbreaks answers hanswers
    · intro k hk
      rw [items_userPage_of_kept hkept (hanswers k)]
      apply length_pageOf_of_lt hpos
      rw [(hanswers k).length_eq]
      exact hk

theorem userRows_of_unrestricted (h : Unrestricted user request) :
    userRows ilike tables user request = tables.authCertificates.rows.filter fun ac =>
      !(!isAdminOrOperator user && !isAuditor user) || ac.userId = user.id := by
  apply List.filter_congr
  intro ac _
  obtain ⟨hsearch, howner⟩ := h
  rw [hsearch]
  rcases howner with hown | hnone
  · simp [hown]
  · by_cases hown : (!isAdminOrOperator user && !isAuditor user) = true
    · simp [hown]
    · cases hid : request.ownerId with
      | none => simp [hown]
      | some owner => simp [hown, hnone owner hid]

/-- Every row that is listed for a status has a certificate that the statistics count under it. -/
def CountedAsListed (ilike : Option Char → String → String → Bool) (tables : UserTables)
    (user : User) (now : Time) (request : ListRequest) : Prop :=
  Unrestricted user request → ∀ status, request.status.bind statusOfText = some status →
    ∀ ac ∈ userRows ilike tables user request,
      ((getCertificateForAuthCert tables ac).any fun cert => countedAs now cert = status) = true

theorem statsAgree_iff (hcomplete : UserPagesComplete ilike tables user now request) :
    StatsAgree ilike tables user now request ↔
      CountedAsListed ilike tables user now request := by
  have hkept := (userPagesComplete_iff.mp hcomplete).1
  have hreturned : ∀ answers : ℕ → List UserCertificate,
      (∀ k, Arranged (userOrder request) (userRows ilike tables user request) (answers k)) →
      returned ilike tables user now request answers =
        (userRows ilike tables user request).length := by
    intro answers hanswers
    have hperm := (hcomplete answers hanswers).perm
    rw [satisfying, List.filter_eq_self.mpr hkept] at hperm
    exact hperm.length_eq
  obtain ⟨answer, hanswer⟩ :=
    exists_arranged (userOrder request) (userRows ilike tables user request)
  constructor
  · intro hagree hfree status hstatus
    have hcount := (hagree hfree (fun _ => answer) fun _ => hanswer).2 status hstatus
    rw [hreturned _ fun _ => hanswer, getUserCertificateStats,
      userRows_of_unrestricted hfree] at hcount
    rw [userRows_of_unrestricted hfree]
    exact List.countP_eq_length.mp hcount.symm
  · intro hcounted hfree answers hanswers
    rw [hreturned answers hanswers, getUserCertificateStats]
    constructor
    · intro _
      rw [userRows_of_unrestricted hfree]
    · intro status hstatus
      have hall := hcounted hfree status hstatus
      rw [userRows_of_unrestricted hfree] at hall ⊢
      exact (List.countP_eq_length.mpr hall).symm

end UserCertificates

section Certificates

/-- A stored certificate with the columns that the list filters and sorts by. -/
structure CertificateEntry where
  id : ℕ
  descr : String
  subject : Option String
  subjectCn : Option String
  issuer : Option String
  serialNumber : Option String
  validFrom : Option Time
  validTo : Option Time
  keyAlgo : Option String
  revoked : Option Bool
  createdAt : Option Time
  deriving Repr, DecidableEq

instance : Keyed CertificateEntry :=
  ⟨CertificateEntry.id, fun k c => { c with id := k }, fun _ _ => rfl, fun _ => rfl⟩

def CertificateEntry.columns (c : CertificateEntry) : StatusColumns := ⟨c.revoked, c.validTo⟩

variable (ilike : Option Char → String → String → Bool)

def certificateRows (table : Table CertificateEntry) (now : Time) (request : ListRequest) :
    List CertificateEntry :=
  let search := stripSpaces request.search
  let safeSearch := replaceText "_" "\\_" (replaceText "%" "\\%" (replaceText "\\" "\\\\" search))
  let found := ilike (some '\\') ("%" ++ safeSearch ++ "%")
  table.rows.filter fun c =>
    ((request.status.bind statusOfText).all (CertificateStatus.listed now c.columns)) &&
    (search = "" || c.subject.any found || c.issuer.any found || found c.descr ||
      c.serialNumber.any found)

def statusOrder (now : Time) (c : CertificateEntry) : ℕ :=
  if c.revoked = some true then 1
  else if c.validTo.any (· ≤ now) then 2
  else if c.validTo.any (· ≤ now + days 30) then 3
  else 4

/-- The approximate compliance score: the strength of the key and the validity. -/
def complianceOrder (now : Time) (c : CertificateEntry) : ℕ :=
  let named (pattern : String) : Bool := c.keyAlgo.any (ilike none pattern)
  (if named "%4096%" then 30
    else if named "%EC%" then 30
    else if named "%P-256%" then 30
    else if named "%P-384%" then 30
    else if named "%Ed25519%" then 30
    else if named "%2048%" then 20
    else if named "%1024%" then 5
    else 15) +
  (if c.revoked = some true then 0
    else if c.validTo.any (· ≤ now) then 0
    else if c.validTo.any (· ≤ now + days 30) then 15
    else 25)

def certificateOrder (now : Time) (request : ListRequest) : SortOrder CertificateEntry :=
  let directed (o : SortOrder CertificateEntry) :=
    if request.sortOrder = "desc" then o.reverse else o
  let cnSort : SortOrder CertificateEntry :=
    .onKey fun c => nullsFirst (c.subjectCn.or (some c.descr))
  match request.sortBy with
  | "status" =>
    (directed (.onKey (statusOrder now))).thenBy (.onKey fun c => nullsFirst c.subject)
  | "compliance_grade" => (directed (.onKey (complianceOrder ilike now))).thenBy cnSort
  | "subject" => directed cnSort
  | "subject_cn" => directed cnSort
  | "issuer" => directed (.onKey fun c => nullsFirst c.issuer)
  | "valid_to" => directed (.onKey fun c => nullsFirst c.validTo)
  | "valid_from" => directed (.onKey fun c => nullsFirst c.validFrom)
  | "created_at" => directed (.onKey fun c => nullsFirst c.createdAt)
  | "serial_number" => directed (.onKey fun c => nullsFirst c.serialNumber)
  | "revoked" => directed (.onKey fun c => nullsFirst (c.revoked.map Bool.toNat))
  | "descr" => directed (.onKey fun c => c.descr)
  | "key_algo" => directed (.onKey fun c => nullsFirst c.keyAlgo)
  | _ => directed (.onKey fun c => nullsFirst c.subject)

/-- `list_certificates`, where `answer` is what the sorted query gives to this request. A filter by
authority names a column that certificates do not have. -/
def listCertificates (request : ListRequest) (answer : List CertificateEntry) :
    Except PyError (Listing CertificateEntry) :=
  let page := max 1 request.page
  let perPage := min (max 1 request.perPage) 100
  if request.ownerId.any (· ≠ 0) then .error (.invalidRequest "Certificate" "ca_id")
  else
    let pagination := paginate answer page perPage
    .ok { pagination with page := page, perPage := perPage }

/-- Whatever the queries for the pages give, each page is answered, and the pages are a complete
list of what satisfies the filter. -/
def CertificatePagesComplete (table : Table CertificateEntry) (now : Time)
    (request : ListRequest) : Prop :=
  ∀ answers : ℕ → List CertificateEntry,
    (∀ k, Arranged (certificateOrder ilike now request)
      (certificateRows ilike table now request) (answers k)) →
    ∃ pages : ℕ → Listing CertificateEntry,
      (∀ k : ℕ, listCertificates { request with page := k + 1 } (answers k) = .ok (pages k)) ∧
      Complete (certificateRows ilike table now request)
        (min (max 1 request.perPage) 100).toNat (fun k => (pages k).items) fun k => (pages k).total

variable {ilike} {table : Table CertificateEntry} {now : Time} {request : ListRequest}

theorem nodup_certificateRows : (certificateRows ilike table now request).Nodup := by
  have hrows := table.sorted.imp fun h => h.ne
  exact (List.Nodup.of_map _ hrows).filter _

theorem listCertificates_page (h : request.ownerId.any (· ≠ 0) = false) (k : ℕ)
    (answer : List CertificateEntry) :
    ∃ listing, listCertificates { request with page := k + 1 } answer = .ok listing ∧
      listing.items = pageOf (min (max 1 request.perPage) 100).toNat k answer ∧
      listing.total = answer.length := by
  have hpage : max 1 ((k : ℤ) + 1) = k + 1 := by omega
  have hsize : pageSize (min (max 1 request.perPage) 100) =
      (min (max 1 request.perPage) 100).toNat := by
    unfold pageSize
    rw [if_neg (by omega)]
    omega
  have hmin : min (min (max 1 request.perPage) 100) 100 = min (max 1 request.perPage) 100 := by
    omega
  have hitems := paginate_page answer k (min (max 1 request.perPage) 100)
  rw [hmin, hsize] at hitems
  refine ⟨{ paginate answer (k + 1) (min (max 1 request.perPage) 100) with
    page := k + 1, perPage := min (max 1 request.perPage) 100 }, ?_, hitems⟩
  rw [listCertificates]
  simp only [h, hpage, Bool.false_eq_true, if_false]

theorem certificatePagesComplete_iff : CertificatePagesComplete ilike table now request ↔
    request.ownerId.any (· ≠ 0) = false ∧
      CleanBreaks (certificateOrder ilike now request) (min (max 1 request.perPage) 100).toNat
        (certificateRows ilike table now request) := by
  have hpos : 0 < (min (max 1 request.perPage) 100).toNat := by omega
  constructor
  · intro hall
    have howner : request.ownerId.any (· ≠ 0) = false := by
      by_contra hasked
      rw [Bool.not_eq_false] at hasked
      obtain ⟨answer, hanswer⟩ := exists_arranged (certificateOrder ilike now request)
        (certificateRows ilike table now request)
      obtain ⟨pages, hpages, _⟩ := hall (fun _ => answer) fun _ => hanswer
      have herror := hpages 0
      rw [listCertificates] at herror
      simp only [hasked] at herror
      cases herror
    refine ⟨howner, (pages_perm_iff hpos nodup_certificateRows).mp ?_⟩
    intro answers hanswers
    obtain ⟨pages, hpages, hcomplete⟩ := hall answers hanswers
    have hitems : ∀ k, (pages k).items =
        pageOf (min (max 1 request.perPage) 100).toNat k (answers k) := by
      intro k
      obtain ⟨listing, hlisting, hcut, _⟩ := listCertificates_page howner k (answers k)
      rw [hpages k, Except.ok.injEq] at hlisting
      rw [hlisting, hcut]
    rw [← List.flatMap_congr fun k _ => hitems k]
    exact hcomplete.perm
  · intro hcond answers hanswers
    obtain ⟨howner, hbreaks⟩ := hcond
    choose pages hpages hitems htotal using fun k => listCertificates_page howner k (answers k)
    refine ⟨pages, hpages, ?_⟩
    constructor
    · intro k
      rw [htotal, (hanswers k).length_eq]
    · rw [List.flatMap_congr fun k _ => hitems k]
      exact (pages_perm_iff hpos nodup_certificateRows).mpr hbreaks answers hanswers
    · intro k hk
      rw [hitems]
      apply length_pageOf_of_lt hpos
      rw [(hanswers k).length_eq]
      exact hk

end Certificates

section Agreement

variable {ilike : Option Char → String → String → Bool} {tables : UserTables}
  {table : Table CertificateEntry} {user : User} {now : Time} {request request' : ListRequest}

/-- Both lists are complete and the statistics agree with the first, exactly where no page begins
among rows that are equal for the sort order, no authority is asked for, and every row of the user
certificates' query passes the status filter and is counted under that status. -/
theorem pagedListing_iff :
    (UserPagesComplete ilike tables user now request ∧ StatsAgree ilike tables user now request ∧
      CertificatePagesComplete ilike table now request') ↔
    ((∀ ac ∈ userRows ilike tables user request,
        kept now request.status (getCertificateForAuthCert tables ac) = true) ∧
      CountedAsListed ilike tables user now request ∧
      CleanBreaks (userOrder request) (pageSize request.perPage)
        (userRows ilike tables user request)) ∧
      request'.ownerId.any (· ≠ 0) = false ∧
      CleanBreaks (certificateOrder ilike now request') (min (max 1 request'.perPage) 100).toNat
        (certificateRows ilike table now request') := by
  rw [← certificatePagesComplete_iff]
  constructor
  · intro hall
    obtain ⟨huser, hstats, hcertificates⟩ := hall
    obtain ⟨hkept, hbreaks⟩ := userPagesComplete_iff.mp huser
    exact ⟨⟨hkept, (statsAgree_iff huser).mp hstats, hbreaks⟩, hcertificates⟩
  · intro hall
    obtain ⟨⟨hkept, hcounted, hbreaks⟩, hcertificates⟩ := hall
    have huser : UserPagesComplete ilike tables user now request :=
      userPagesComplete_iff.mpr ⟨hkept, hbreaks⟩
    exact ⟨huser, (statsAgree_iff huser).mpr hcounted, hcertificates⟩

def enrolled (id : ℕ) (certSerial : String) : UserCertificate where
  id := id
  userId := 1
  certSerial := certSerial
  certSubject := "CN=client"
  createdAt := some 0

def enrolledAlike : UserTables where
  authCertificates := ⟨[enrolled 1 "11", enrolled 2 "12", enrolled 3 "13"], by decide⟩
  certificates := [(some "11", ⟨some true, some 100⟩), (some "12", ⟨some false, some 100⟩),
    (some "13", ⟨some false, some 100⟩)]

def administrator : User where
  id := 1
  username := "admin"
  email := "admin@localhost"
  passwordHash := ""
  role := "admin"

/-- The one revoked certificate is listed, but as one of three. Two to a page, those enrolled at
one time may come twice or not at all. -/
theorem userPages_incomplete :
    ¬ UserPagesComplete (fun _ _ _ => false) enrolledAlike administrator 0
        { perPage := 25, status := some "revoked", sortBy := "created_at", sortOrder := "desc" } ∧
      ¬ UserPagesComplete (fun _ _ _ => false) enrolledAlike administrator 0
        { perPage := 2, sortBy := "created_at", sortOrder := "desc" } := by
  rw [userPagesComplete_iff, userPagesComplete_iff]
  constructor
  · intro hcomplete
    have hkept := hcomplete.1 (enrolled 2 "12")
    revert hkept
    decide +kernel
  · intro hcomplete
    have hbreak := hcomplete.2 1
    revert hbreak
    decide +kernel

end Agreement

end Listings

end CaManager
