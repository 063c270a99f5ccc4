import CaManager.Acme.Proxy

/-!
# Addresses that the proxy hands out

The number of an upstream address is read back from any address it stands in, and numbers tell
addresses apart. Three requests answer for an order: placing it, polling it and finalizing it.
They advertise the same addresses as long as the number in the request is the one that was handed
out; finalizing does not use that number but the padded one.
-/

namespace CaManager

open Library

namespace AcmeProxyService

section Numbers

theorem decodePadded_eq_ok {id url : String} :
    decodePadded id = .ok url ↔
      ∃ bytes, Base64.urlsafeB64decode id = .ok bytes ∧ decodeText bytes = some url := by
  simp only [decodePadded, bind_eq_ok, mapError_eq_ok, orThrow_eq_ok]

@[simp] theorem decodeId_encodeId (url : String) : decodeId (encodeId url) = .ok url :=
  decodePadded_eq_ok.mpr
    ⟨encodeText url, Base64.urlsafeB64decode_pad_unpadded _, decodeText_encodeText url⟩

theorem encodeId_injective : Function.Injective encodeId := by
  intro url url' h
  have hdecode := decodeId_encodeId url
  rw [h, decodeId_encodeId] at hdecode
  exact (Except.ok.inj hdecode).symm

theorem slash_notMem_encodeId (url : String) : '/' ∉ (encodeId url).toList := by
  intro hmem
  have hdigit := Base64.isUrlDigit_of_mem_unpadded hmem
  revert hdigit
  decide

theorem toList_length_le_encodeId (url : String) :
    url.toList.length ≤ (encodeId url).toList.length :=
  (length_le_encodeText url).trans (Base64.length_le_unpadded _)

end Numbers

section Segments

variable (svc : AcmeProxyService)

/-- The segment of an address after what all addresses of its kind begin with. -/
def segment (kind address : String) : String :=
  String.ofList ((address.toList.drop (svc.localUrl kind "").toList.length).takeWhile (· ≠ '/'))

theorem segment_append (kind id : String) (rest : List Char) (hid : '/' ∉ id.toList)
    (hrest : rest.head? = none ∨ rest.head? = some '/') :
    svc.segment kind (svc.localUrl kind id ++ String.ofList rest) = id := by
  have hlist : (svc.localUrl kind id ++ String.ofList rest).toList =
      (svc.localUrl kind "").toList ++ (id.toList ++ rest) := by
    simp [localUrl]
  have htake : (id.toList ++ rest).takeWhile (· ≠ '/') = id.toList := by
    have hall : ∀ c ∈ id.toList, (decide (c ≠ '/')) = true := by
      intro c hc
      rw [decide_eq_true_eq]
      rintro rfl
      exact hid hc
    rw [List.takeWhile_append_of_pos hall]
    rcases rest with _ | ⟨c, rest⟩
    · simp
    · have hc : c = '/' := by simpa using hrest
      simp [hc]
  rw [segment, hlist, List.drop_left, htake, String.ofList_toList]

@[simp] theorem segment_localUrl (kind url : String) :
    svc.segment kind (svc.localUrl kind (encodeId url)) = encodeId url := by
  have h := svc.segment_append kind (encodeId url) [] (slash_notMem_encodeId url) (.inl rfl)
  rwa [String.ofList_nil, String.append_empty] at h

@[simp] theorem segment_finalizeUrl (url : String) :
    svc.segment "order" (svc.finalizeUrl (encodeId url)) = encodeId url :=
  svc.segment_append "order" (encodeId url) "/finalize".toList (slash_notMem_encodeId url)
    (.inr rfl)

theorem localUrl_injective (kind : String) : Function.Injective (svc.localUrl kind) := by
  intro id id' h
  have hlist := congrArg String.toList h
  simp only [localUrl, String.toList_append] at hlist
  exact String.toList_injective (List.append_cancel_left hlist)

theorem finalizeUrl_injective : Function.Injective svc.finalizeUrl := by
  intro id id' h
  have hlist := congrArg String.toList h
  rw [finalizeUrl, finalizeUrl, String.toList_append, String.toList_append] at hlist
  exact svc.localUrl_injective "order" (String.toList_injective (List.append_cancel_right hlist))

theorem certificateUrl_ne (url : String) : svc.certificateUrl url ≠ url := by
  intro h
  have hlength := congrArg (fun s => s.toList.length) h
  have hle := toList_length_le_encodeId url
  simp only [certificateUrl, localUrl, String.toList_append, List.length_append] at hlength
  have hslash : ("/" : String).toList.length = 1 := rfl
  omega

end Segments

end AcmeProxyService

namespace ProxyAddresses

open AcmeProxyService

/-- A request about an order, with what it meets: placing, polling or finalizing. -/
inductive OrderRequest
  | newOrder (st : ClientStore) (identifiers : List Identifier) (clientThumbprint : Option String)
      (answer : Answer OrderObject) (now : Time)
  | getOrder (id : String) (answer : Answer OrderObject)
  | finalizeOrder (id : String) (csr : Except PyError Csr) (fetched answer : Answer OrderObject)

/-- The addresses in a response: its location, and two members of the order. -/
structure Advertised where
  order : String
  finalize : Option String
  certificate : Option String
  deriving Repr, DecidableEq

namespace OrderRequest

def answer : OrderRequest → Answer OrderObject
  | newOrder _ _ _ answer _ => answer
  | getOrder _ answer => answer
  | finalizeOrder _ _ _ answer => answer

def named (r : OrderRequest) : Option String := r.answer.json.toOption.bind OrderObject.certificate

def isNew : OrderRequest → Bool
  | newOrder .. => true
  | _ => false

def handed (svc : AcmeProxyService) (r : OrderRequest) : Option String :=
  if r.isNew then r.named else r.named.map svc.certificateUrl

def IsFor (location : String) : OrderRequest → Prop
  | newOrder _ _ _ answer _ => answer.location = some location
  | getOrder id _ => decodeId id = .ok location
  | finalizeOrder id _ _ _ => decodeId id = .ok location

def respond (svc : AcmeProxyService) : OrderRequest → Except ProxyError (OrderObject × String)
  | newOrder st identifiers clientThumbprint answer now =>
    (svc.newOrder st identifiers clientThumbprint answer now).1
  | getOrder id answer => (·, id) <$> svc.getOrder id answer
  | finalizeOrder id csr fetched answer => (·, id) <$> svc.finalizeOrder id csr fetched answer

def advertised (svc : AcmeProxyService) (r : OrderRequest) : Option Advertised :=
  (r.respond svc).toOption.map fun (order, id) =>
    ⟨svc.localUrl "order" id, order.finalize, order.certificate⟩

/-- The number in the request is the one that was handed out, and it is used. -/
def KeepsNumber (location : String) : OrderRequest → Prop
  | newOrder .. => True
  | getOrder id _ => id = encodeId location
  | finalizeOrder .. => False

instance (location : String) (r : OrderRequest) : Decidable (r.KeepsNumber location) :=
  match r with
  | newOrder .. => isTrue trivial
  | getOrder id _ => inferInstanceAs (Decidable (id = encodeId location))
  | finalizeOrder .. => isFalse id

end OrderRequest

def Advertised.Agrees (a b : Advertised) : Prop :=
  a.order = b.order ∧ a.finalize = b.finalize ∧
    ∀ c ∈ a.certificate, ∀ c' ∈ b.certificate, c = c'

def RoundTrips (svc : AcmeProxyService) : Prop :=
  ∀ url, (∀ kind, decodeId (svc.segment kind (svc.localUrl kind (encodeId url))) = .ok url) ∧
    decodeId (svc.segment "order" (svc.finalizeUrl (encodeId url))) = .ok url

def Distinct (svc : AcmeProxyService) : Prop :=
  (∀ kind, Function.Injective fun url => svc.localUrl kind (encodeId url)) ∧
    Function.Injective fun url => svc.finalizeUrl (encodeId url)

def Uniform (svc : AcmeProxyService) (requests : List OrderRequest) : Prop :=
  ∀ r ∈ requests, ∀ r' ∈ requests, ∀ a ∈ r.advertised svc, ∀ a' ∈ r'.advertised svc,
    a.Agrees a'

theorem roundTrips (svc : AcmeProxyService) : RoundTrips svc := by
  intro url
  constructor
  · intro kind
    rw [segment_localUrl, decodeId_encodeId]
  · rw [segment_finalizeUrl, decodeId_encodeId]

theorem distinct (svc : AcmeProxyService) : Distinct svc :=
  ⟨fun kind => (svc.localUrl_injective kind).comp encodeId_injective,
    svc.finalizeUrl_injective.comp encodeId_injective⟩

section Responses

variable {svc : AcmeProxyService} {r : OrderRequest} {a : Advertised} {location : String}

structure Advertises (svc : AcmeProxyService) (id padded : String) (certificate : Option String)
    (a : Advertised) : Prop where
  order : a.order = svc.localUrl "order" id
  finalize : a.finalize = some (svc.finalizeUrl padded)
  certificate : a.certificate = certificate

theorem exists_of_advertised (h : a ∈ r.advertised svc) :
    ∃ order id, r.respond svc = .ok (order, id) ∧
      a = ⟨svc.localUrl "order" id, order.finalize, order.certificate⟩ := by
  rw [OrderRequest.advertised, Option.mem_def, Option.map_eq_some_iff] at h
  obtain ⟨⟨order, id⟩, hrespond, rfl⟩ := h
  exact ⟨order, id, toOption_eq_some.mp hrespond, rfl⟩

theorem advertises_newOrder {st : ClientStore} {identifiers : List Identifier}
    {thumbprint : Option String} {answer : Answer OrderObject} {now : Time}
    (hfor : answer.location = some location)
    (h : a ∈ (OrderRequest.newOrder st identifiers thumbprint answer now).advertised svc) :
    Advertises svc (encodeId location) (encodeId location)
      (answer.json.toOption.bind OrderObject.certificate) a := by
  obtain ⟨order, id, hrespond, rfl⟩ := exists_of_advertised h
  change (svc.newOrder st identifiers thumbprint answer now).1 = _ at hrespond
  unfold newOrder at hrespond
  split at hrespond
  next placed location' st' hplaced =>
    simp only [placeOrder, bind_eq_ok, orThrow_eq_ok, mapError_eq_ok, pure_eq_ok, hfor,
      Option.some.injEq, Prod.mk.injEq] at hplaced
    obtain ⟨_, _, _, _, order', hjson, _, rfl, _, _, rfl, rfl, _⟩ := hplaced
    simp only [placedAnswer, bind_eq_ok, orThrow_eq_ok, pure_eq_ok, Prod.mk.injEq] at hrespond
    obtain ⟨_, _, rfl, rfl⟩ := hrespond
    rw [hjson]
    exact ⟨rfl, rfl, rfl⟩
  next => cases hrespond

theorem advertises_getOrder {id : String} {answer : Answer OrderObject}
    (h : a ∈ (OrderRequest.getOrder id answer).advertised svc) :
    Advertises svc id id
      ((answer.json.toOption.bind OrderObject.certificate).map svc.certificateUrl) a := by
  obtain ⟨order, id', hrespond, rfl⟩ := exists_of_advertised h
  simp only [OrderRequest.respond, getOrder, map_eq_ok, bind_eq_ok, mapError_eq_ok, pure_eq_ok,
    Prod.mk.injEq] at hrespond
  obtain ⟨_, ⟨_, _, _, _, order', hjson, rfl⟩, rfl, rfl⟩ := hrespond
  rw [hjson]
  exact ⟨rfl, rfl, rfl⟩

theorem advertises_finalizeOrder {id : String} {csr : Except PyError Csr}
    {fetched answer : Answer OrderObject}
    (h : a ∈ (OrderRequest.finalizeOrder id csr fetched answer).advertised svc) :
    Advertises svc id (Base64.pad id)
      ((answer.json.toOption.bind OrderObject.certificate).map svc.certificateUrl) a := by
  obtain ⟨order, id', hrespond, rfl⟩ := exists_of_advertised h
  simp only [OrderRequest.respond, finalizeOrder, map_eq_ok, bind_eq_ok, mapError_eq_ok,
    orThrow_eq_ok, pure_eq_ok, Prod.mk.injEq] at hrespond
  obtain ⟨_, ⟨_, _, _, _, _, _, _, _, _, _, order', hjson, rfl⟩, rfl, rfl⟩ := hrespond
  rw [hjson]
  exact ⟨rfl, rfl, rfl⟩

theorem advertises_of_keepsNumber (hfor : r.IsFor location) (hkeeps : r.KeepsNumber location)
    (h : a ∈ r.advertised svc) :
    Advertises svc (encodeId location) (encodeId location)
      (r.handed svc) a := by
  cases r with
  | newOrder st identifiers thumbprint answer now => exact advertises_newOrder hfor h
  | getOrder id answer =>
    have hid : id = encodeId location := hkeeps
    subst hid
    exact advertises_getOrder h
  | finalizeOrder id csr fetched answer => exact hkeeps.elim

theorem keepsNumber_of_agrees {b : Advertised} {certificate : Option String}
    (hb : Advertises svc (encodeId location) (encodeId location) certificate b)
    (h : a ∈ r.advertised svc) (hagrees : b.Agrees a) : r.KeepsNumber location := by
  have horder : a.order = svc.localUrl "order" (encodeId location) := hagrees.1 ▸ hb.order
  cases r with
  | newOrder st identifiers thumbprint answer now => trivial
  | getOrder id answer =>
    rw [(advertises_getOrder h).order] at horder
    exact svc.localUrl_injective "order" horder
  | finalizeOrder id csr fetched answer =>
    have hpadded := hagrees.2.1.trans (advertises_finalizeOrder h).finalize
    have hpad := svc.finalizeUrl_injective (Option.some.inj (hb.finalize.symm.trans hpadded))
    exact (Base64.pad_ne_unpadded id (encodeText location) hpad.symm).elim

end Responses

/-- Placing an order passes the certificate's address on as it is; polling rewrites it. -/
def CertificatesApart (requests : List OrderRequest) : Prop :=
  ∀ r ∈ requests, ∀ r' ∈ requests, r.isNew = true → r'.isNew = false →
    r.named = none ∨ r'.named = none

theorem handed_agree {svc : AcmeProxyService} {certificate : String}
    {requests : List OrderRequest} (hapart : CertificatesApart requests)
    (hnamed : ∀ r ∈ requests, ∀ c ∈ r.named, c = certificate) {r r' : OrderRequest}
    (hr : r ∈ requests) (hr' : r' ∈ requests) {given given' : Option String}
    (h : given = r.handed svc) (h' : given' = r'.handed svc) :
    ∀ c ∈ given, ∀ c' ∈ given', c = c' := by
  subst h h'
  intro c hc c' hc'
  unfold OrderRequest.handed at hc hc'
  cases hnew : r.isNew with
  | true =>
    rw [if_pos hnew] at hc
    cases hnew' : r'.isNew with
    | true =>
      rw [if_pos hnew'] at hc'
      exact (hnamed r hr c hc).trans (hnamed r' hr' c' hc').symm
    | false =>
      rw [if_neg (by simp [hnew'])] at hc'
      rcases hapart r hr r' hr' hnew hnew' with hnone | hnone
      · simp [hnone] at hc
      · simp [hnone] at hc'
  | false =>
    rw [if_neg (by simp [hnew])] at hc
    cases hnew' : r'.isNew with
    | true =>
      rw [if_pos hnew'] at hc'
      rcases hapart r' hr' r hr hnew' hnew with hnone | hnone
      · simp [hnone] at hc'
      · simp [hnone] at hc
    | false =>
      rw [if_neg (by simp [hnew'])] at hc'
      obtain ⟨url, hurl, rfl⟩ := Option.map_eq_some_iff.mp hc
      obtain ⟨url', hurl', rfl⟩ := Option.map_eq_some_iff.mp hc'
      rw [hnamed r hr url hurl, hnamed r' hr' url' hurl']

/-- The number of an address is read back from every address that it stands in and tells
addresses apart, and the responses for an order advertise the same addresses exactly if none of
them is to finalizing, polling is by the number that was handed out, and no certificate is named
both when the order is placed and when it is polled. -/
theorem addresses_coherent_iff {svc : AcmeProxyService} {location certificate : String}
    {first : OrderRequest} {rest : List OrderRequest} (hnew : first.isNew = true)
    (hfor : ∀ r ∈ first :: rest, r.IsFor location)
    (hanswered : ∀ r ∈ first :: rest, (r.advertised svc).isSome = true)
    (hnamed : ∀ r ∈ first :: rest, ∀ c ∈ r.named, c = certificate) :
    (RoundTrips svc ∧ Distinct svc ∧ Uniform svc (first :: rest)) ↔
      (∀ r ∈ rest, r.KeepsNumber location) ∧ CertificatesApart (first :: rest) := by
  have hkeepsFirst : first.KeepsNumber location := by
    cases first with
    | newOrder st identifiers thumbprint answer now => trivial
    | getOrder id answer => cases hnew
    | finalizeOrder id csr fetched answer => cases hnew
  obtain ⟨b, hb⟩ := Option.isSome_iff_exists.mp (hanswered first List.mem_cons_self)
  have hadvertises := advertises_of_keepsNumber (hfor first List.mem_cons_self) hkeepsFirst hb
  constructor
  · rintro ⟨-, -, huniform⟩
    have hkeeps : ∀ r ∈ first :: rest, r.KeepsNumber location := by
      intro r hr
      obtain ⟨a, ha⟩ := Option.isSome_iff_exists.mp (hanswered r hr)
      exact keepsNumber_of_agrees hadvertises ha (huniform first List.mem_cons_self r hr b hb a ha)
    refine ⟨fun r hr => hkeeps r (List.mem_cons_of_mem first hr), ?_⟩
    intro r hr r' hr' hisNew hpolled
    by_contra hboth
    rw [not_or] at hboth
    obtain ⟨c, hc⟩ := Option.ne_none_iff_exists'.mp hboth.1
    obtain ⟨c', hc'⟩ := Option.ne_none_iff_exists'.mp hboth.2
    obtain ⟨a, ha⟩ := Option.isSome_iff_exists.mp (hanswered r hr)
    obtain ⟨a', ha'⟩ := Option.isSome_iff_exists.mp (hanswered r' hr')
    have hcert := (advertises_of_keepsNumber (hfor r hr) (hkeeps r hr) ha).certificate
    have hcert' := (advertises_of_keepsNumber (hfor r' hr') (hkeeps r' hr') ha').certificate
    rw [OrderRequest.handed, if_pos hisNew, hc] at hcert
    rw [OrderRequest.handed, if_neg (by simp [hpolled]), hc'] at hcert'
    have heq := (huniform r hr r' hr' a ha a' ha').2.2 c hcert _ hcert'
    rw [hnamed r hr c hc, hnamed r' hr' c' hc'] at heq
    exact svc.certificateUrl_ne certificate heq.symm
  · rintro ⟨hkeepsRest, hapart⟩
    have hkeeps : ∀ r ∈ first :: rest, r.KeepsNumber location := by
      intro r hr
      rcases List.mem_cons.mp hr with rfl | hr
      · exact hkeepsFirst
      · exact hkeepsRest r hr
    refine ⟨roundTrips svc, distinct svc, ?_⟩
    intro r hr r' hr' a ha a' ha'
    have hadv := advertises_of_keepsNumber (hfor r hr) (hkeeps r hr) ha
    have hadv' := advertises_of_keepsNumber (hfor r' hr') (hkeeps r' hr') ha'
    refine ⟨hadv.order.trans hadv'.order.symm, hadv.finalize.trans hadv'.finalize.symm, ?_⟩
    exact handed_agree hapart hnamed hr hr' hadv.certificate hadv'.certificate

section Sample

def sampleService : AcmeProxyService := ⟨"https://ca.example", "https://upstream.example/dir", "t"⟩

def sampleProvider : DnsProvider := ⟨1, "dns", "manual", none⟩

def sampleProxy : ClientStore :=
  { store := sampleStore, domains := [("example.com", 1)]
    providers := (∅ : Table DnsProvider).insert sampleProvider }

def samplePlacing : OrderRequest :=
  .newOrder sampleProxy [⟨some "dns", some "example.com"⟩] none
    { statusCode := 201, json := .ok { authorizations := some [] }, location := some "u" } 0

/-- Polling it by the number that was handed out, when its certificate is there. -/
def samplePolling : OrderRequest :=
  .getOrder (encodeId "u") { statusCode := 200, json := .ok { certificate := some "c" } }

def sampleFinalizing : OrderRequest :=
  .finalizeOrder (encodeId "u") (.ok (plainRequest "example.com"))
    { statusCode := 200, json := .ok { finalize := some "f" } }
    { statusCode := 200, json := .ok {} }

theorem placed_advertised : (samplePlacing.advertised sampleService).isSome = true := by
  decide +kernel

/-- An order that is placed and polled. -/
theorem addresses_coherent_polled : RoundTrips sampleService ∧ Distinct sampleService ∧
    Uniform sampleService [samplePlacing, samplePolling] := by
  have hpolled : (samplePolling.advertised sampleService).isSome = true := by decide +kernel
  have hall : ∀ {P : OrderRequest → Prop}, P samplePlacing → P samplePolling →
      ∀ r ∈ [samplePlacing, samplePolling], P r := by
    intro P hplacing hpolling r hr
    simp only [List.mem_cons, List.not_mem_nil, or_false] at hr
    rcases hr with rfl | rfl
    · exact hplacing
    · exact hpolling
  refine (@addresses_coherent_iff sampleService "u" "c" _ _ rfl
    (hall rfl (decodeId_encodeId "u")) (hall placed_advertised hpolled)
    (hall (fun _ h => by cases h) (fun _ h => by cases h; rfl))).mpr ⟨?_, ?_⟩
  · intro r hr
    rw [List.mem_singleton.mp hr]
    exact rfl
  · intro r hr r' _ hnew _
    revert hnew
    exact hall (P := fun r => r.isNew = true → r.named = none ∨ r'.named = none)
      (fun _ => .inl rfl) (fun h => by cases h) r hr

/-- Finalizing an order advertises another address for that than placing it did. -/
theorem finalized_elsewhere : ¬(RoundTrips sampleService ∧ Distinct sampleService ∧
    Uniform sampleService [samplePlacing, sampleFinalizing]) := by
  rintro ⟨-, -, huniform⟩
  have hfinalized : (sampleFinalizing.advertised sampleService).isSome = true := by decide +kernel
  obtain ⟨b, hb⟩ := Option.isSome_iff_exists.mp placed_advertised
  obtain ⟨a, ha⟩ := Option.isSome_iff_exists.mp hfinalized
  have hagrees := huniform _ List.mem_cons_self _ (List.mem_cons_of_mem _ List.mem_cons_self) b hb
    a ha
  exact keepsNumber_of_agrees (advertises_newOrder rfl hb) ha hagrees

end Sample

end ProxyAddresses

end CaManager
