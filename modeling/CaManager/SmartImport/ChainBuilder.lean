import CaManager.Store.Imports
import Mathlib.Data.List.Chain

/-!
# Building the chains of a bundle

From each certificate that is no authority the builder climbs to an issuer, found by key identifier
or else by name, as long as it meets serial numbers that are new, and for ten certificates at most.
It never turns back, so that a wrong choice among cross-signed authorities, a serial number that
two issuers have drawn, or a long way up ends a chain that could have been completed. A bundle of
authorities alone is not climbed at all: its authorities are put in one chain as they are listed.
-/

namespace CaManager

open Library

variable {α : Type}

structure ChainInfo (α : Type) where
  root : Option (ParsedObject α) := none
  intermediates : List (ParsedObject α) := []
  leaf : Option (ParsedObject α) := none
  isComplete : Bool := false
  isValid : Bool := false
  errors : List String := []
  deriving Repr, DecidableEq

/-- `get_ordered_chain`, from the leaf to the root. -/
def ChainInfo.orderedChain (chain : ChainInfo α) : List (ParsedObject α) :=
  chain.leaf.toList ++ chain.intermediates ++ chain.root.toList

/-- The certificate itself, without its place in the bundle and what is noted on it. -/
def ParsedObject.content (o : ParsedObject α) : ParsedObject α :=
  { o with index := 0, chainDepth := 0 }

@[simp] theorem ParsedObject.content_serialNumber (o : ParsedObject α) :
    o.content.serialNumber = o.serialNumber := rfl

/-- One certificate names another as its issuer, by key identifier or by name. -/
def IssuedBy (child parent : ParsedObject α) : Prop :=
  (∃ ski, ski ≠ "" ∧ child.aki = some ski ∧ parent.ski = some ski) ∨ child.issuer = parent.subject

namespace ChainBuilder

open SmartImporter (nonEmpty)

def roots (certs : List (ParsedObject α)) : List (ParsedObject α) :=
  certs.filter fun c => c.isSelfSigned && c.isCa

def leaves (certs : List (ParsedObject α)) : List (ParsedObject α) :=
  certs.filter fun c => !c.isCa

def intermediates (certs : List (ParsedObject α)) : List (ParsedObject α) :=
  certs.filter fun c => c.isCa && !c.isSelfSigned

def subjectMap (certs : List (ParsedObject α)) (subject : String) : List (ParsedObject α) :=
  certs.filter fun c => c.subject = subject

def skiMap (certs : List (ParsedObject α)) (ski : String) : Option (ParsedObject α) :=
  certs.reverse.find? fun c => c.ski = some ski

def isNew (visited : List String) (current c : ParsedObject α) : Bool :=
  c.serialNumber ∉ visited && c.serialNumber ≠ current.serialNumber

def issuerByKeyId (certs : List (ParsedObject α)) (visited : List String)
    (current : ParsedObject α) : Option (ParsedObject α) :=
  ((nonEmpty current.aki).bind (skiMap certs)).filter (isNew visited current)

def issuerByName (certs : List (ParsedObject α)) (visited : List String)
    (current : ParsedObject α) : Option (ParsedObject α) :=
  let issuerCerts := (subjectMap certs current.issuer).filter (isNew visited current)
  (issuerCerts.find? fun c => c.isCa).or issuerCerts.head?

def findIssuer (certs : List (ParsedObject α)) (visited : List String)
    (current : ParsedObject α) : Option (ParsedObject α) :=
  (issuerByKeyId certs visited current).or (issuerByName certs visited current)

/-- The `while` loop of `_build_chain_for_leaf`, with the certificates that may still be added. -/
def climb (certs : List (ParsedObject α)) :
    ℕ → List String → ParsedObject α → ChainInfo α → ChainInfo α
  | 0, _, _, chain =>
    { chain with errors := chain.errors ++ ["Chain depth exceeds limit (possible loop)"] }
  | remaining + 1, visited, current, chain =>
    match findIssuer certs visited current with
    | none => chain
    | some issuer =>
      if issuer.isSelfSigned then { chain with root := some issuer, isComplete := true }
      else
        climb certs remaining (issuer.serialNumber :: visited) issuer
          { chain with intermediates := chain.intermediates ++ [issuer] }

/-- `_build_chain_for_leaf` -/
def buildChainForLeaf (certs : List (ParsedObject α)) (leaf : ParsedObject α) : ChainInfo α :=
  climb certs 10 [leaf.serialNumber] leaf { leaf := some leaf }

def onlyRoot (certs : List (ParsedObject α)) : Option (ParsedObject α) :=
  if (roots certs).length = 1 then (roots certs).head? else none

def caOnlyChain (certs : List (ParsedObject α)) : ChainInfo α :=
  { root := onlyRoot certs, intermediates := intermediates certs
    isComplete := !(roots certs).isEmpty }

/-- `_validate_chain`, where `verify` loads two certificates and checks the signature. -/
def validateChain (verify : ParsedObject α → ParsedObject α → Except String Unit)
    (chain : ChainInfo α) : ChainInfo α :=
  let ordered := chain.orderedChain
  let failures := (ordered.zip ordered.tail).filterMap fun (child, parent) =>
    match verify child parent with
    | .ok _ => none
    | .error e => some ("Signature verification failed: " ++ child.subject ++ " signed by " ++
        parent.subject ++ ": " ++ e)
  { chain with isValid := failures.isEmpty, errors := chain.errors ++ failures }

/-- `build_chains` -/
def buildChains (verify : ParsedObject α → ParsedObject α → Except String Unit)
    (certs : List (ParsedObject α)) : List (ChainInfo α) :=
  if certs.isEmpty then []
  else
    let chains := (leaves certs).map (buildChainForLeaf certs)
    let chains :=
      if (leaves certs).isEmpty && (!(roots certs).isEmpty || !(intermediates certs).isEmpty) then
        chains ++ [caOnlyChain certs]
      else chains
    chains.map (validateChain verify)

section Validation

variable (verify : ParsedObject α → ParsedObject α → Except String Unit) (chain : ChainInfo α)

@[simp] theorem validateChain_leaf : (validateChain verify chain).leaf = chain.leaf := rfl

@[simp] theorem validateChain_isComplete :
    (validateChain verify chain).isComplete = chain.isComplete := rfl

@[simp] theorem validateChain_orderedChain :
    (validateChain verify chain).orderedChain = chain.orderedChain := rfl

end Validation

/-! ### The issuer that is preferred -/

def IsFirst (P : ParsedObject α → Prop) (certs : List (ParsedObject α)) (o : ParsedObject α) :
    Prop :=
  ∃ before after, certs = before ++ o :: after ∧ P o ∧ ∀ o' ∈ before, ¬P o'

def HasKeyId (certs : List (ParsedObject α)) (current o : ParsedObject α) : Prop :=
  ∃ ski, ski ≠ "" ∧ current.aki = some ski ∧ IsFirst (fun c => c.ski = some ski) certs.reverse o

/-- A certificate with the name of the issuer whose serial number has not been met. -/
def Named (visited : List String) (current c : ParsedObject α) : Prop :=
  c.subject = current.issuer ∧ c.serialNumber ∉ visited

/-- Among the issuers with new serial numbers the one found by key identifier comes first, then the
first authority with the name, then the first certificate with the name. -/
inductive Preferred (certs : List (ParsedObject α)) (visited : List String)
    (current issuer : ParsedObject α) : Prop
  | byKeyId (found : HasKeyId certs current issuer) (new : issuer.serialNumber ∉ visited)
  | byName (unfound : ∀ o, HasKeyId certs current o → o.serialNumber ∈ visited)
      (first : IsFirst (fun c => Named visited current c ∧
        (c.isCa = true ∨ ∀ o ∈ certs, Named visited current o → o.isCa = false)) certs issuer)

section Preference

variable {certs : List (ParsedObject α)} {visited : List String}
  {current issuer : ParsedObject α}

theorem find?_eq_some_iff_isFirst {p : ParsedObject α → Bool} {o : ParsedObject α} :
    certs.find? p = some o ↔ IsFirst (fun c => p c = true) certs o := by
  rw [List.find?_eq_some_iff_append]
  constructor
  · rintro ⟨hp, before, after, heq, hbefore⟩
    exact ⟨before, after, heq, hp, by simpa using hbefore⟩
  · rintro ⟨before, after, heq, hp, hbefore⟩
    exact ⟨hp, before, after, heq, by simpa using hbefore⟩

theorem IsFirst.congr {P Q : ParsedObject α → Prop} (h : ∀ o, P o ↔ Q o) {o : ParsedObject α} :
    IsFirst P certs o ↔ IsFirst Q certs o := by
  have hPQ : P = Q := funext fun o => propext (h o)
  rw [hPQ]

theorem IsFirst.prop {P : ParsedObject α → Prop} {o : ParsedObject α} (h : IsFirst P certs o) :
    P o := by
  obtain ⟨_, _, _, hP, _⟩ := h
  exact hP

theorem isNew_iff (hcurrent : current.serialNumber ∈ visited) (c : ParsedObject α) :
    isNew visited current c = true ↔ c.serialNumber ∉ visited := by
  simp only [isNew, Bool.and_eq_true, decide_eq_true_eq, and_iff_left_iff_imp]
  intro hnew heq
  exact hnew (heq ▸ hcurrent)

theorem bind_skiMap_eq_some_iff :
    (nonEmpty current.aki).bind (skiMap certs) = some issuer ↔ HasKeyId certs current issuer := by
  simp only [Option.bind_eq_some_iff, nonEmpty, Option.filter_eq_some_iff, skiMap,
    find?_eq_some_iff_isFirst, decide_eq_true_eq, HasKeyId]
  constructor
  · rintro ⟨ski, ⟨haki, hne⟩, hfirst⟩
    exact ⟨ski, hne, haki, hfirst⟩
  · rintro ⟨ski, hne, haki, hfirst⟩
    exact ⟨ski, ⟨haki, hne⟩, hfirst⟩

theorem issuerByKeyId_eq_some_iff (hcurrent : current.serialNumber ∈ visited) :
    issuerByKeyId certs visited current = some issuer ↔
      HasKeyId certs current issuer ∧ issuer.serialNumber ∉ visited := by
  rw [issuerByKeyId, Option.filter_eq_some_iff, bind_skiMap_eq_some_iff,
    isNew_iff hcurrent]

theorem find?_or_head?_filter (named ca : ParsedObject α → Bool) :
    ((certs.filter named).find? ca).or (certs.filter named).head? =
      certs.find? fun c => named c && (ca c || !certs.any fun o => named o && ca o) := by
  have hfind : (certs.filter named).find? ca = certs.find? fun c => named c && ca c := by
    simp [List.find?_filter]
  rw [hfind, List.head?_filter]
  cases hca : certs.find? fun c => named c && ca c with
  | some o =>
    have ho := List.find?_some hca
    have hany : (certs.any fun o => named o && ca o) = true :=
      List.any_eq_true.mpr ⟨o, List.mem_of_find?_eq_some hca, ho⟩
    simp [hany, hca]
  | none =>
    have hany : (certs.any fun o => named o && ca o) = false := by
      simpa [List.find?_eq_none] using hca
    simp [hany]

theorem issuerByName_eq_some_iff (hcurrent : current.serialNumber ∈ visited) :
    issuerByName certs visited current = some issuer ↔
      IsFirst (fun c => Named visited current c ∧
        (c.isCa = true ∨ ∀ o ∈ certs, Named visited current o → o.isCa = false)) certs issuer := by
  have hnamed : ∀ c : ParsedObject α, (isNew visited current c &&
      decide (c.subject = current.issuer)) = true ↔ Named visited current c := by
    intro c
    rw [Bool.and_eq_true, decide_eq_true_eq, isNew_iff hcurrent, Named, and_comm]
  simp only [issuerByName, subjectMap, List.filter_filter]
  rw [find?_or_head?_filter, find?_eq_some_iff_isFirst]
  apply IsFirst.congr
  intro c
  rw [Bool.and_eq_true, hnamed c]
  apply and_congr_right
  intro _
  rw [Bool.or_eq_true, Bool.not_eq_true', List.any_eq_false]
  apply or_congr_right
  apply forall₂_congr
  intro o _
  rw [Bool.and_eq_true, hnamed o, not_and, Bool.not_eq_true]

theorem findIssuer_eq_some_iff (hcurrent : current.serialNumber ∈ visited) :
    findIssuer certs visited current = some issuer ↔ Preferred certs visited current issuer := by
  rw [findIssuer, Option.or_eq_some_iff, issuerByKeyId_eq_some_iff hcurrent,
    issuerByName_eq_some_iff hcurrent]
  constructor
  · rintro (⟨hfound, hnew⟩ | ⟨hunfound, hfirst⟩)
    · exact .byKeyId hfound hnew
    · refine .byName ?_ hfirst
      intro o ho
      by_contra hnew
      have := (issuerByKeyId_eq_some_iff hcurrent).mpr ⟨ho, hnew⟩
      simp [hunfound] at this
  · rintro (⟨hfound, hnew⟩ | ⟨hunfound, hfirst⟩)
    · exact .inl ⟨hfound, hnew⟩
    · refine .inr ⟨?_, hfirst⟩
      rw [Option.eq_none_iff_forall_ne_some]
      intro o ho
      obtain ⟨hfound, hnew⟩ := (issuerByKeyId_eq_some_iff hcurrent).mp ho
      exact hnew (hunfound o hfound)

theorem Preferred.new (h : Preferred certs visited current issuer) :
    issuer.serialNumber ∉ visited := by
  cases h with
  | byKeyId _ hnew => exact hnew
  | byName _ hfirst => exact hfirst.prop.1.2

theorem Preferred.issuedBy (h : Preferred certs visited current issuer) :
    IssuedBy current issuer := by
  cases h with
  | byKeyId hfound _ =>
    obtain ⟨ski, hne, haki, hfirst⟩ := hfound
    exact .inl ⟨ski, hne, haki, hfirst.prop⟩
  | byName _ hfirst => exact .inr hfirst.prop.1.1.symm

end Preference

/-! ### What a chain is for -/

/-- A chain starts at its leaf, goes from each certificate to an issuer of it, and names no
certificate twice. -/
structure IsChain (chain : ChainInfo α) : Prop where
  fromLeaf : ∀ leaf ∈ chain.leaf, chain.orderedChain.head? = some leaf
  linked : chain.orderedChain.IsChain IssuedBy
  once : (chain.orderedChain.map ParsedObject.content).Nodup

def HasCompletePath (certs : List (ParsedObject α)) (leaf : ParsedObject α) : Prop :=
  ∃ path : List (ParsedObject α), path ⊆ certs ∧ (leaf :: path).IsChain IssuedBy ∧
    ∃ root ∈ path.getLast?, root ∈ roots certs

/-- What is asked of the chains: one for each leaf, each of them a chain, and complete where that
is possible. -/
structure Exact (certs : List (ParsedObject α)) (chains : List (ChainInfo α)) : Prop where
  leaves : chains.filterMap ChainInfo.leaf = leaves certs
  isChain : ∀ chain ∈ chains, IsChain chain
  complete : ∀ chain ∈ chains, ∀ leaf ∈ chain.leaf, HasCompletePath certs leaf →
    chain.isComplete = true

/-- A way up to a self-signed certificate through preferred issuers, with at most so many
certificates and with serial numbers that are new each time. -/
inductive PreferredPath (certs : List (ParsedObject α)) :
    ℕ → List String → ParsedObject α → Prop
  | root {n : ℕ} {visited : List String} {current issuer : ParsedObject α}
      (preferred : Preferred certs visited current issuer)
      (selfSigned : issuer.isSelfSigned = true) : PreferredPath certs (n + 1) visited current
  | step {n : ℕ} {visited : List String} {current issuer : ParsedObject α}
      (preferred : Preferred certs visited current issuer)
      (rest : PreferredPath certs n (issuer.serialNumber :: visited) issuer) :
      PreferredPath certs (n + 1) visited current

/-- A bundle that the builder can deal with. A leaf with a way to a root has one of at most ten
certificates through preferred issuers; and a bundle without leaves lists its authorities upwards,
the only root apart if there is only one. -/
structure Climbable (certs : List (ParsedObject α)) : Prop where
  preferred : ∀ leaf ∈ leaves certs, HasCompletePath certs leaf →
    PreferredPath certs 10 [leaf.serialNumber] leaf
  upwards : leaves certs = [] →
    (intermediates certs ++ (onlyRoot certs).toList).IsChain IssuedBy ∧
      ((intermediates certs ++ (onlyRoot certs).toList).map ParsedObject.content).Nodup

/-! ### Climbing -/

/-- A chain that is being built, from its leaf to the current certificate. -/
structure Climbing (chain : ChainInfo α) (visited : List String) (leaf current : ParsedObject α) :
    Prop where
  root : chain.root = none
  leaf : chain.leaf = some leaf
  linked : chain.orderedChain.IsChain IssuedBy
  serials : (chain.orderedChain.map ParsedObject.serialNumber).Nodup
  visited : ∀ o ∈ chain.orderedChain, o.serialNumber ∈ visited
  last : chain.orderedChain.getLast? = some current

section Climb

variable {certs : List (ParsedObject α)} {visited : List String} {chain : ChainInfo α}
  {leaf current issuer : ParsedObject α}

theorem Climbing.current_mem (h : Climbing chain visited leaf current) :
    current.serialNumber ∈ visited :=
  h.visited current (List.mem_of_getLast? h.last)

theorem Climbing.snoc (h : Climbing chain visited leaf current)
    (hissuer : Preferred certs visited current issuer) :
    (chain.orderedChain ++ [issuer]).IsChain IssuedBy ∧
      ((chain.orderedChain ++ [issuer]).map ParsedObject.serialNumber).Nodup := by
  constructor
  · apply h.linked.append (List.isChain_singleton issuer)
    intro o ho o' ho'
    rw [h.last] at ho
    simp only [List.head?_cons, Option.mem_def, Option.some.injEq] at ho ho'
    subst ho ho'
    exact hissuer.issuedBy
  · rw [List.map_append, List.map_singleton, List.nodup_append]
    refine ⟨h.serials, List.nodup_singleton _, ?_⟩
    intro s hs s' hs' heq
    obtain ⟨o, ho, rfl⟩ := List.mem_map.mp hs
    rw [List.mem_singleton] at hs'
    subst hs'
    exact hissuer.new (heq ▸ h.visited o ho)

theorem Climbing.step (h : Climbing chain visited leaf current)
    (hissuer : Preferred certs visited current issuer) :
    Climbing { chain with intermediates := chain.intermediates ++ [issuer] }
      (issuer.serialNumber :: visited) leaf issuer := by
  have hordered : { chain with intermediates := chain.intermediates ++ [issuer] }.orderedChain =
      chain.orderedChain ++ [issuer] := by
    simp [ChainInfo.orderedChain, h.root]
  obtain ⟨hlinked, hserials⟩ := h.snoc hissuer
  refine ⟨h.root, h.leaf, ?_, ?_, ?_, ?_⟩
  · rw [hordered]
    exact hlinked
  · rw [hordered]
    exact hserials
  · rw [hordered]
    intro o ho
    rcases List.mem_append.mp ho with ho | ho
    · exact List.mem_cons_of_mem _ (h.visited o ho)
    · rw [List.mem_singleton] at ho
      simp [ho]
  · rw [hordered]
    simp

theorem isChain_of_serials (hleaf : chain.leaf = some leaf)
    (hlinked : chain.orderedChain.IsChain IssuedBy)
    (hserials : (chain.orderedChain.map ParsedObject.serialNumber).Nodup) : IsChain chain := by
  refine ⟨?_, hlinked, ?_⟩
  · simp [ChainInfo.orderedChain, hleaf]
  · apply List.Nodup.of_map ParsedObject.serialNumber
    rw [List.map_map]
    exact hserials

theorem isChain_climb (remaining : ℕ) (h : Climbing chain visited leaf current) :
    IsChain (climb certs remaining visited current chain) ∧
      (climb certs remaining visited current chain).leaf = some leaf := by
  induction remaining generalizing chain visited current with
  | zero => exact ⟨isChain_of_serials h.leaf h.linked h.serials, h.leaf⟩
  | succ remaining ih =>
    unfold climb
    cases hfound : findIssuer certs visited current with
    | none => exact ⟨isChain_of_serials h.leaf h.linked h.serials, h.leaf⟩
    | some issuer =>
      have hissuer := (findIssuer_eq_some_iff h.current_mem).mp hfound
      by_cases hself : issuer.isSelfSigned = true
      · simp only [hself, if_true]
        obtain ⟨hlinked, hserials⟩ := h.snoc hissuer
        have hordered : { chain with root := some issuer, isComplete := true }.orderedChain =
            chain.orderedChain ++ [issuer] := by
          simp [ChainInfo.orderedChain, h.root]
        refine ⟨isChain_of_serials h.leaf ?_ ?_, h.leaf⟩
        · rw [hordered]
          exact hlinked
        · rw [hordered]
          exact hserials
      · simp only [hself, Bool.false_eq_true, if_false]
        exact ih (h.step hissuer)

theorem climb_isComplete_iff (remaining : ℕ) (hcurrent : current.serialNumber ∈ visited)
    (hchain : chain.isComplete = false) :
    (climb certs remaining visited current chain).isComplete = true ↔
      PreferredPath certs remaining visited current := by
  induction remaining generalizing chain visited current with
  | zero =>
    simp only [climb, hchain, Bool.false_eq_true, false_iff]
    intro h
    cases h
  | succ remaining ih =>
    have hpreferred : ∀ o, Preferred certs visited current o →
        findIssuer certs visited current = some o :=
      fun o => (findIssuer_eq_some_iff hcurrent).mpr
    unfold climb
    cases hfound : findIssuer certs visited current with
    | none =>
      simp only [hchain, Bool.false_eq_true, false_iff]
      intro h
      cases h with
      | root hissuer _ => simp [hpreferred _ hissuer] at hfound
      | step hissuer _ => simp [hpreferred _ hissuer] at hfound
    | some issuer =>
      have hissuer := (findIssuer_eq_some_iff hcurrent).mp hfound
      by_cases hself : issuer.isSelfSigned = true
      · simp only [hself, if_true, true_iff]
        exact .root hissuer hself
      · simp only [hself, Bool.false_eq_true, if_false]
        rw [ih (List.mem_cons_self ..) (by exact hchain)]
        constructor
        · exact .step hissuer
        · intro h
          cases h with
          | root hissuer' hself' =>
            rw [hpreferred _ hissuer', Option.some.injEq] at hfound
            exact absurd (hfound ▸ hself') hself
          | step hissuer' hrest =>
            rw [hpreferred _ hissuer', Option.some.injEq] at hfound
            exact hfound ▸ hrest

end Climb

section Chains

variable (certs : List (ParsedObject α))

theorem climbing_leaf (leaf : ParsedObject α) :
    Climbing { leaf := some leaf } [leaf.serialNumber] leaf leaf := by
  constructor <;> simp [ChainInfo.orderedChain]

theorem isChain_buildChainForLeaf (leaf : ParsedObject α) :
    IsChain (buildChainForLeaf certs leaf) :=
  (isChain_climb 10 (climbing_leaf leaf)).1

@[simp] theorem buildChainForLeaf_leaf (leaf : ParsedObject α) :
    (buildChainForLeaf certs leaf).leaf = some leaf :=
  (isChain_climb 10 (climbing_leaf leaf)).2

theorem buildChainForLeaf_isComplete_iff (leaf : ParsedObject α) :
    (buildChainForLeaf certs leaf).isComplete = true ↔
      PreferredPath certs 10 [leaf.serialNumber] leaf :=
  climb_isComplete_iff 10 (List.mem_singleton_self _) rfl

variable (verify : ParsedObject α → ParsedObject α → Except String Unit)

theorem roots_or_intermediates (hne : certs ≠ []) (hleaves : leaves certs = []) :
    roots certs ≠ [] ∨ intermediates certs ≠ [] := by
  obtain ⟨c, hc⟩ := List.exists_mem_of_ne_nil certs hne
  have hca : c.isCa = true := by
    by_contra hleaf
    have : c ∈ leaves certs := List.mem_filter.mpr ⟨hc, by simpa using hleaf⟩
    simp [hleaves] at this
  cases hself : c.isSelfSigned with
  | true => exact .inl (List.ne_nil_of_mem (List.mem_filter.mpr ⟨hc, by simp [hca, hself]⟩))
  | false => exact .inr (List.ne_nil_of_mem (List.mem_filter.mpr ⟨hc, by simp [hca, hself]⟩))

theorem buildChains_of_leaves (hleaves : leaves certs ≠ []) :
    buildChains verify certs =
      ((leaves certs).map (buildChainForLeaf certs)).map (validateChain verify) := by
  have hne : certs ≠ [] := by
    rintro rfl
    exact hleaves rfl
  simp [buildChains, hne, hleaves]

theorem buildChains_of_no_leaves (hne : certs ≠ []) (hleaves : leaves certs = []) :
    buildChains verify certs = [validateChain verify (caOnlyChain certs)] := by
  have hsome := roots_or_intermediates certs hne hleaves
  have hcas : (!(roots certs).isEmpty || !(intermediates certs).isEmpty) = true := by
    simpa using hsome
  simp [buildChains, hne, hleaves, hcas]

theorem isChain_validateChain (chain : ChainInfo α) :
    IsChain (validateChain verify chain) ↔ IsChain chain :=
  ⟨fun h => ⟨h.fromLeaf, h.linked, h.once⟩, fun h => ⟨h.fromLeaf, h.linked, h.once⟩⟩

theorem exact_of_leaves (hleaves : leaves certs ≠ []) :
    Exact certs (buildChains verify certs) ↔
      ∀ leaf ∈ leaves certs, HasCompletePath certs leaf →
        PreferredPath certs 10 [leaf.serialNumber] leaf := by
  rw [buildChains_of_leaves certs verify hleaves]
  constructor
  · intro h leaf hleaf hpath
    rw [← buildChainForLeaf_isComplete_iff]
    refine h.complete (validateChain verify (buildChainForLeaf certs leaf)) ?_ leaf ?_ hpath
    · exact List.mem_map_of_mem (List.mem_map_of_mem hleaf)
    · simp
  · intro h
    refine ⟨?_, ?_, ?_⟩
    · simp [List.filterMap_map, Function.comp_def]
    · intro chain hchain
      simp only [List.map_map, List.mem_map, Function.comp_apply] at hchain
      obtain ⟨leaf, hleaf, rfl⟩ := hchain
      rw [isChain_validateChain]
      exact isChain_buildChainForLeaf certs leaf
    · intro chain hchain leaf' hleaf' hpath
      simp only [List.map_map, List.mem_map, Function.comp_apply] at hchain
      obtain ⟨leaf, hleaf, rfl⟩ := hchain
      simp only [validateChain_leaf, buildChainForLeaf_leaf, Option.mem_def,
        Option.some.injEq] at hleaf'
      subst hleaf'
      rw [validateChain_isComplete, buildChainForLeaf_isComplete_iff]
      exact h leaf hleaf hpath

theorem exact_of_no_leaves (hne : certs ≠ []) (hleaves : leaves certs = []) :
    Exact certs (buildChains verify certs) ↔
      (intermediates certs ++ (onlyRoot certs).toList).IsChain IssuedBy ∧
        ((intermediates certs ++ (onlyRoot certs).toList).map ParsedObject.content).Nodup := by
  rw [buildChains_of_no_leaves certs verify hne hleaves]
  constructor
  · intro h
    have hchain := (isChain_validateChain verify _).mp (h.isChain _ (List.mem_singleton_self _))
    exact ⟨hchain.linked, hchain.once⟩
  · rintro ⟨hlinked, honce⟩
    refine ⟨?_, ?_, ?_⟩
    · simp [hleaves, caOnlyChain]
    · intro chain hchain
      rw [List.mem_singleton] at hchain
      subst hchain
      rw [isChain_validateChain]
      exact ⟨by simp [caOnlyChain], hlinked, honce⟩
    · intro chain hchain
      rw [List.mem_singleton] at hchain
      subst hchain
      simp [caOnlyChain]

end Chains

/-- The chains that are built are what is asked for exactly if the bundle can be climbed. -/
theorem buildChains_exact_iff (verify : ParsedObject α → ParsedObject α → Except String Unit)
    (certs : List (ParsedObject α)) :
    Exact certs (buildChains verify certs) ↔ Climbable certs := by
  by_cases hleaves : leaves certs = []
  · by_cases hne : certs = []
    · subst hne
      refine ⟨fun _ => ⟨by simp [leaves], by simp [intermediates, onlyRoot, roots]⟩, fun _ => ?_⟩
      exact ⟨rfl, by simp [buildChains], by simp [buildChains]⟩
    · rw [exact_of_no_leaves certs verify hne hleaves]
      exact ⟨fun h => ⟨by simp [hleaves], fun _ => h⟩, fun h => h.upwards hleaves⟩
  · rw [exact_of_leaves certs verify hleaves]
    exact ⟨fun h => ⟨h, fun hnil => absurd hnil hleaves⟩, fun h => h.preferred⟩

/-- An authority that a root and another authority have signed, and a certificate that it has
issued. -/
def crossSigned : List (ParsedObject String) :=
  [{ raw := "leaf", subject := "CN=host", issuer := "CN=issuing", serialNumber := "1"
     aki := some "AA" },
   { raw := "from the root", subject := "CN=issuing", issuer := "CN=root", serialNumber := "2"
     isCa := true, ski := some "AA", aki := some "BB" },
   { raw := "from another", subject := "CN=issuing", issuer := "CN=other", serialNumber := "3"
     isCa := true, ski := some "AA", aki := some "CC" },
   { raw := "root", subject := "CN=root", issuer := "CN=root", serialNumber := "4", isCa := true
     isSelfSigned := true, ski := some "BB", aki := some "BB" }]

/-- The certificate that the other authority has signed is found last, and nothing above it. -/
theorem crossSigned_not_exact :
    ¬Exact crossSigned (buildChains (fun _ _ => .ok ()) crossSigned) := by
  intro h
  have hpath : HasCompletePath crossSigned crossSigned[0] := by
    refine ⟨[crossSigned[1], crossSigned[3]], ?_, ?_, crossSigned[3], ?_, ?_⟩
    · simp [crossSigned]
    · simp [crossSigned, IssuedBy]
    · rfl
    · decide
  have hcomplete := h.complete
    (validateChain (fun _ _ => .ok ()) (buildChainForLeaf crossSigned crossSigned[0]))
    (by decide) crossSigned[0] (by decide) hpath
  exact absurd hcomplete (by decide)

end ChainBuilder

end CaManager
