import CaManager.Updates.Versions
import CaManager.X509
import Mathlib.Data.List.Sort

/-!
# Releases

The releases of the program are looked up, and the newest of those that may be offered is compared
with the running version. The order is that of the tuples. They are ordered as the versions are, if
the marks of prereleases do not run into those of another kind or of the release, and if versions of
more than three numbers have as many of them.
-/

namespace CaManager

open Library

namespace Updates

structure Asset where
  name : String
  browserDownloadUrl : String
  deriving Repr, DecidableEq

structure Release where
  tagName : String
  draft : Bool := false
  prerelease : Bool := false
  body : Option String := some ""
  publishedAt : Option String := none
  htmlUrl : Option String := none
  assets : List Asset := []
  deriving Repr, DecidableEq

structure ReleasesCache where
  data : Option (List Release) := none
  ts : Time := 0
  ttl : Time := 300
  deriving Repr, DecidableEq

structure Installation where
  isDocker : Bool
  isDeb : Bool
  isRpm : Bool
  deriving Repr, DecidableEq

/-- What is answered. Fields that an answer leaves out have no value. -/
structure UpdateInfo where
  updateAvailable : Bool
  currentVersion : String
  latestVersion : Option String := none
  message : Option String := none
  error : Option String := none
  releaseNotes : Option String := none
  currentReleaseNotes : Option String := none
  currentPublishedAt : Option String := none
  downloadUrl : Option String := none
  packageName : Option String := none
  publishedAt : Option String := none
  htmlUrl : Option String := none
  prerelease : Bool := false
  repo : Option String := none
  deriving Repr, DecidableEq

def getGithubRepo : String := "NeySlim/ultimate-ca-manager"

def tagSuffix (tag : String) : String :=
  String.ofList ((lstripV tag).toList.dropWhile (· ≠ '-')).tail

/-- Drafts are passed over, and prereleases and versions in development unless they are included. -/
def isCandidate (includePrereleases includeDev : Bool) (release : Release) : Bool :=
  !release.draft && (!release.prerelease ||
    includePrereleases && (!startsWith (tagSuffix release.tagName) "dev" || includeDev))

def candidates (releases : List Release) (includePrereleases includeDev : Bool) : List Release :=
  releases.filter (isCandidate includePrereleases includeDev)

/-- The candidates are sorted by version, highest first, and the first is taken. -/
def latestRelease (candidates : List Release) : Option Release :=
  (candidates.mergeSort fun r r' => parseVersion r'.tagName ≤ parseVersion r.tagName).head?

def currentRelease (releases : List Release) (current : String) : Option Release :=
  releases.find? fun release => lstripV release.tagName = current && !release.draft

def endsWith (s t : String) : Bool := t.toList.isSuffixOf s.toList

def choosePackage (installation : Installation) (latestVersion : String) (assets : List Asset) :
    Option String × Option String :=
  if installation.isDocker then
    match assets with
    | [] => (none, none)
    | asset :: _ => (some s!"ghcr.io/neyslim/ultimate-ca-manager:{latestVersion}", some asset.name)
  else
    let debAsset := assets.find? fun asset => endsWith asset.name ".deb"
    let rpmAsset := assets.find? fun asset => endsWith asset.name ".rpm"
    let chosen := if installation.isDeb && debAsset.isSome then debAsset
      else if installation.isRpm && rpmAsset.isSome then rpmAsset else none
    (chosen.map Asset.browserDownloadUrl, chosen.map Asset.name)

/-- The releases that were loaded last, for a while, or those that are loaded now. -/
def getReleases (cache : ReleasesCache) (fetched : Except String (List Release)) (force : Bool)
    (now : Time) : Except String (List Release) × ReleasesCache :=
  match if force then none else
    cache.data.filter fun data => data ≠ [] && now - cache.ts < cache.ttl with
  | some releases => (.ok releases, cache)
  | none =>
    match fetched with
    | .error e => (.error e, cache)
    | .ok releases => (.ok releases, { cache with data := some releases, ts := now })

def updateInfo (installation : Installation) (releases : List Release) (current : String)
    (includePrereleases includeDev : Bool) : UpdateInfo :=
  if releases = [] then
    { updateAvailable := false, currentVersion := current, latestVersion := some current
      message := some "No releases found" }
  else
    let running := currentRelease releases current
    let currentReleaseNotes := (running.map Release.body).getD (some "")
    let currentPublishedAt := (running.map Release.publishedAt).getD (some "")
    match latestRelease (candidates releases includePrereleases includeDev) with
    | none =>
      { updateAvailable := false, currentVersion := current, latestVersion := some current
        currentReleaseNotes := currentReleaseNotes, currentPublishedAt := currentPublishedAt
        message := some "No applicable releases found" }
    | some release =>
      let latestVersion := lstripV release.tagName
      let package := choosePackage installation latestVersion release.assets
      { updateAvailable := 0 < compareVersions latestVersion current, currentVersion := current
        latestVersion := some latestVersion, releaseNotes := release.body
        currentReleaseNotes := currentReleaseNotes, currentPublishedAt := currentPublishedAt
        downloadUrl := package.1, packageName := package.2, publishedAt := release.publishedAt
        htmlUrl := release.htmlUrl, prerelease := release.prerelease
        repo := some getGithubRepo }

/-- `check_for_updates` -/
def checkForUpdates (installation : Installation) (cache : ReleasesCache)
    (fetched : Except String (List Release)) (current : String)
    (includePrereleases includeDev force : Bool) (now : Time) : UpdateInfo × ReleasesCache :=
  match getReleases cache fetched force now with
  | (.error e, cache) =>
    ({ updateAvailable := false, currentVersion := current
       error := some s!"Failed to check for updates: {e}" }, cache)
  | (.ok releases, cache) =>
    (updateInfo installation releases current (includePrereleases || includeDev) includeDev, cache)

section Order

variable {v w : Version} {s t : String}

/-- What keeps a version in its place against another: its mark stays below those of later kinds and
of the release, and where the other has more numbers, it comes before them. -/
structure OrderKept (v w : Version) : Prop where
  final : v.padded = w.padded → w.prerelease = none →
    ∀ kind n, v.prerelease = some (kind, n) → kind.offset + n < 999
  later : v.padded = w.padded → ∀ kind n kind' n', v.prerelease = some (kind, n) →
    w.prerelease = some (kind', n') → kind.index < kind'.index →
      kind.offset + n < kind'.offset + n'
  zeros : ∀ rest, rest ≠ [] → w.padded = v.padded ++ rest → (∀ n ∈ rest, n = 0) →
    w.stage < v.stage
  longer : ∀ c rest, w.padded = v.padded ++ c :: rest → (¬∀ n ∈ c :: rest, n = 0) → v.mark ≤ c

/-- The texts are compared as the versions are ordered. -/
structure Compared (s t : String) (v w : Version) : Prop where
  lt_iff : compareVersions s t < 0 ↔ v.rank < w.rank
  eq_iff : compareVersions s t = 0 ↔ v.rank = w.rank
  gt_iff : 0 < compareVersions s t ↔ w.rank < v.rank

theorem compareVersions_neg_iff : compareVersions s t < 0 ↔ parseVersion s < parseVersion t := by
  unfold compareVersions
  split_ifs with hlt hgt
  · exact iff_of_true (by decide) hlt
  · exact iff_of_false (by decide) hlt
  · exact iff_of_false (by decide) hlt

theorem compareVersions_pos_iff : 0 < compareVersions s t ↔ parseVersion t < parseVersion s := by
  unfold compareVersions
  split_ifs with hlt hgt
  · exact iff_of_false (by decide) hlt.asymm
  · exact iff_of_true (by decide) hgt
  · exact iff_of_false (by decide) hgt

theorem compareVersions_eq_zero_iff :
    compareVersions s t = 0 ↔ parseVersion s = parseVersion t := by
  have hneg := compareVersions_neg_iff (s := s) (t := t)
  have hpos := compareVersions_pos_iff (s := s) (t := t)
  rw [le_antisymm_iff, ← not_lt, ← not_lt, hneg, hpos, not_lt, not_lt, ← le_antisymm_iff, eq_comm]

theorem compared_iff (hs : Spells s v) (ht : Spells t w) :
    Compared s t v w ↔
      SameOrder (v.padded ++ [v.mark]) (w.padded ++ [w.mark]) v.rank w.rank := by
  rw [← parseVersion_of_spells hs, ← parseVersion_of_spells ht]
  constructor
  · exact fun h => ⟨compareVersions_neg_iff.symm.trans h.lt_iff,
      compareVersions_pos_iff.symm.trans h.gt_iff⟩
  · intro h
    constructor
    case lt_iff => exact compareVersions_neg_iff.trans h.lt_iff
    case eq_iff => exact compareVersions_eq_zero_iff.trans h.eq_iff
    case gt_iff => exact compareVersions_pos_iff.trans h.gt_iff

theorem stage_of_final (h : v.prerelease = none) : v.stage = ⊤ ∧ v.mark = 999 := by
  unfold Version.stage Version.mark
  rw [h]
  exact ⟨rfl, rfl⟩

theorem stage_of_prerelease {kind : PrereleaseKind} {n : ℕ} (h : v.prerelease = some (kind, n)) :
    v.stage = (toLex (kind.index, n) : ℕ ×ₗ ℕ) ∧ v.mark = kind.offset + n := by
  unfold Version.stage Version.mark
  rw [h]
  exact ⟨rfl, rfl⟩

theorem index_inj {kind kind' : PrereleaseKind} : kind.index = kind'.index ↔ kind = kind' := by
  cases kind <;> cases kind' <;> decide

theorem mark_eq_of_stage_eq (h : v.stage = w.stage) : v.mark = w.mark := by
  rcases hv : v.prerelease with _ | ⟨kind, n⟩
  · rcases hw : w.prerelease with _ | ⟨kind', n'⟩
    · rw [(stage_of_final hv).2, (stage_of_final hw).2]
    · rw [(stage_of_final hv).1, (stage_of_prerelease hw).1] at h
      exact absurd h.symm (WithTop.coe_ne_top)
  · rcases hw : w.prerelease with _ | ⟨kind', n'⟩
    · rw [(stage_of_prerelease hv).1, (stage_of_final hw).1] at h
      exact absurd h (WithTop.coe_ne_top)
    · rw [(stage_of_prerelease hv).1, (stage_of_prerelease hw).1, WithTop.coe_inj] at h
      obtain ⟨hkind, rfl⟩ := Prod.mk.inj (toLex.injective h)
      rw [(stage_of_prerelease hv).2, (stage_of_prerelease hw).2, index_inj.mp hkind]

theorem mark_lt_iff :
    (v.stage < w.stage → v.mark < w.mark) ↔
      (w.prerelease = none → ∀ kind n, v.prerelease = some (kind, n) → kind.offset + n < 999) ∧
        ∀ kind n kind' n', v.prerelease = some (kind, n) → w.prerelease = some (kind', n') →
          kind.index < kind'.index → kind.offset + n < kind'.offset + n' := by
  rcases hv : v.prerelease with _ | ⟨kind, n⟩
  · have hlast : ¬v.stage < w.stage := by
      rw [(stage_of_final hv).1]
      exact not_top_lt
    simp [hlast]
  · rcases hw : w.prerelease with _ | ⟨kind', n'⟩
    · have hstage : v.stage < w.stage := by
        rw [(stage_of_final hw).1, (stage_of_prerelease hv).1]
        exact WithTop.coe_lt_top _
      rw [(stage_of_prerelease hv).2, (stage_of_final hw).2]
      simp [hstage]
    · rw [(stage_of_prerelease hv).1, (stage_of_prerelease hw).1, (stage_of_prerelease hv).2,
        (stage_of_prerelease hw).2, WithTop.coe_lt_coe, Prod.Lex.toLex_lt_toLex, index_inj]
      constructor
      · intro h
        refine ⟨fun hnone => absurd hnone (Option.some_ne_none _), ?_⟩
        rintro _ _ _ _ ⟨⟩ ⟨⟩ hindex
        exact h (.inl hindex)
      · rintro ⟨-, h⟩ (hindex | ⟨rfl, hn⟩)
        · exact h _ _ _ _ rfl rfl hindex
        · exact Int.add_lt_add_left (Int.ofNat_lt.mpr hn) _

theorem orderKept_iff (v w : Version) :
    OrderKept v w ↔ (v.padded = w.padded → v.stage < w.stage → v.mark < w.mark) ∧
      ∀ rest, rest ≠ [] → w.padded = v.padded ++ rest →
        KeptBefore v.mark v.stage w.stage rest := by
  constructor
  · intro h
    constructor
    · intro heq
      exact mark_lt_iff.mpr ⟨h.final heq, h.later heq⟩
    · intro rest hne heq
      refine ⟨h.zeros rest hne heq, ?_⟩
      intro hnot c hc
      obtain ⟨tail, rfl⟩ := List.head?_eq_some_iff.mp hc
      exact h.longer c tail heq hnot
  · rintro ⟨hequal, hlonger⟩
    constructor
    case final => exact fun heq => (mark_lt_iff.mp (hequal heq)).1
    case later => exact fun heq => (mark_lt_iff.mp (hequal heq)).2
    case zeros => exact fun rest hne heq => (hlonger rest hne heq).1
    case longer =>
      intro c rest heq hnot
      exact (hlonger (c :: rest) (List.cons_ne_nil c rest) heq).2 hnot c rfl

theorem marksKept_iff (v w : Version) :
    MarksKept v.padded w.padded v.mark w.mark v.stage w.stage ↔ OrderKept v w ∧ OrderKept w v := by
  rw [orderKept_iff, orderKept_iff]
  constructor
  · intro h
    exact ⟨⟨fun heq => (h.equal heq).lt_iff.mpr, h.longer⟩,
      fun heq => (h.equal heq.symm).gt_iff.mpr, h.shorter⟩
  · rintro ⟨⟨hlt, hlonger⟩, hgt, hshorter⟩
    constructor
    case equal =>
      intro heq
      exact .of_imp mark_eq_of_stage_eq (hlt heq) (hgt heq.symm)
    case longer => exact hlonger
    case shorter => exact hshorter

theorem mark_pos (v : Version) : 0 < v.mark := by
  have hoffset (kind : PrereleaseKind) : 0 < kind.offset := by cases kind <;> decide
  rcases hv : v.prerelease with _ | ⟨kind, n⟩
  · rw [(stage_of_final hv).2]
    decide
  · rw [(stage_of_prerelease hv).2]
    have := hoffset kind
    omega

theorem padded_nonneg (v : Version) : ∀ n ∈ v.padded, 0 ≤ n := by
  intro n hn
  rcases List.mem_append.mp hn with hn | hn
  · obtain ⟨m, -, rfl⟩ := List.mem_map.mp hn
    exact Int.natCast_nonneg m
  · exact (List.mem_replicate.mp hn).2.ge

theorem compared_iff_orderKept (hs : Spells s v) (ht : Spells t w) :
    Compared s t v w ↔ OrderKept v w ∧ OrderKept w v := by
  have hpairs := sameOrder_append_iff (s := v.stage) (t := w.stage) (mark_pos v) (mark_pos w)
    (padded_nonneg v) (padded_nonneg w)
  rw [← marksKept_iff, ← hpairs, compared_iff hs ht, Version.padded, Version.padded,
    extended_padTo, extended_padTo]
  rfl

end Order

section Offers

variable {releases : List Release} {release : Release} {current tag : String} {v : Version}
  {includePrereleases includeDev : Bool}

def IsDev (tag : String) : Prop := ∃ v n, Spells tag v ∧ v.prerelease = some (.dev, n)

/-- Is the release of a channel that is asked for? Whoever asks for versions in development asks for
prereleases as well. -/
structure Allowed (includePrereleases includeDev : Bool) (release : Release) : Prop where
  published : release.draft = false
  prerelease : release.prerelease = true → includePrereleases = true ∨ includeDev = true
  dev : release.prerelease = true → IsDev release.tagName → includeDev = true

def Newer (s t : String) : Prop := ∃ v w, Spells s v ∧ Spells t w ∧ w.rank < v.rank

/-- A release is offered exactly if an allowed one is newer than the running version, and then the
newest. -/
structure OffersRightly (releases : List Release) (current : String)
    (includePrereleases includeDev : Bool) (info : UpdateInfo) : Prop where
  offered : info.updateAvailable = true → ∃ release ∈ releases,
    Allowed includePrereleases includeDev release ∧
      info.latestVersion = some (lstripV release.tagName) ∧ Newer release.tagName current ∧
        ∀ release' ∈ releases, Allowed includePrereleases includeDev release' →
          ¬Newer release'.tagName release.tagName
  notOffered : info.updateAvailable = false → ∀ release ∈ releases,
    Allowed includePrereleases includeDev release → ¬Newer release.tagName current

/-- Texts of these versions are compared as the versions are ordered, and of releases with such
texts the right one is offered. -/
structure OrdersRightly (vs : List Version) : Prop where
  compares : ∀ v ∈ vs, ∀ w ∈ vs, ∀ s t, Spells s v → Spells t w → Compared s t v w
  offers : ∀ installation cache fetched current includePrereleases includeDev force now releases,
    (getReleases cache fetched force now).1 = .ok releases →
      (∀ release ∈ releases, ∃ v ∈ vs, Spells release.tagName v) →
        (∃ v ∈ vs, Spells current v) →
          OffersRightly releases current includePrereleases includeDev (checkForUpdates installation
            cache fetched current includePrereleases includeDev force now).1

theorem isPrefixOf_label (kind : PrereleaseKind) (cs : List Char) :
    ['d', 'e', 'v'].isPrefixOf (kind.label.toList ++ cs) = decide (kind = .dev) := by
  cases kind <;> rfl

theorem startsWith_tagSuffix (h : Spells tag v) :
    startsWith (tagSuffix tag) "dev" = true ↔ IsDev tag := by
  obtain ⟨numerals, hnumerals, hstripped⟩ := h.stripped
  have hdash : ∀ c ∈ (joinText '.' numerals).toList, decide (c ≠ '-') = true := by
    intro c hc
    rw [decide_eq_true_iff]
    rintro rfl
    exact notMem_numerals hnumerals (by decide) (by decide) hc
  have hdev : IsDev tag ↔ ∃ n, v.prerelease = some (.dev, n) := by
    constructor
    · rintro ⟨v', n, hv', hn⟩
      exact ⟨n, h.unique hv' ▸ hn⟩
    · rintro ⟨n, hn⟩
      exact ⟨v, n, h, hn⟩
  rw [hdev]
  unfold tagSuffix
  rcases hstripped with ⟨hfinal, htext⟩ | ⟨kind, n, suffix, hprerelease, hsuffix, htext⟩
  · rw [htext, List.dropWhile_eq_nil_iff.mpr hdash, hfinal]
    simp [startsWith]
  · have hchars : (joinText '.' numerals ++ String.singleton '-' ++ String.ofList suffix).toList =
        (joinText '.' numerals).toList ++ '-' :: suffix := by simp
    rw [htext, hchars, List.dropWhile_append_of_pos hdash, hprerelease]
    obtain ⟨cs, rfl⟩ := hsuffix.exists_digits
    rw [List.dropWhile_cons_of_neg (by simp), List.tail_cons, startsWith, String.toList_ofList,
      String.toList_ofList, isPrefixOf_label, decide_eq_true_iff]
    simp

theorem isCandidate_iff (h : Spells release.tagName v) :
    isCandidate (includePrereleases || includeDev) includeDev release = true ↔
      Allowed includePrereleases includeDev release := by
  have hdev := startsWith_tagSuffix h
  unfold isCandidate
  simp only [Bool.and_eq_true, Bool.or_eq_true, Bool.not_eq_true']
  rw [← Bool.not_eq_true (startsWith _ _), hdev]
  constructor
  · rintro ⟨hpublished, hchannel⟩
    constructor
    case published => exact hpublished
    case prerelease =>
      intro hprerelease
      rw [hprerelease] at hchannel
      exact (hchannel.resolve_left (by decide)).1
    case dev =>
      intro hprerelease hisDev
      rw [hprerelease] at hchannel
      exact (hchannel.resolve_left (by decide)).2.resolve_left (not_not_intro hisDev)
  · intro h
    refine ⟨h.published, ?_⟩
    by_cases hprerelease : release.prerelease = true
    · refine .inr ⟨h.prerelease hprerelease, ?_⟩
      by_cases hisDev : IsDev release.tagName
      · exact .inr (h.dev hprerelease hisDev)
      · exact .inl hisDev
    · exact .inl (Bool.eq_false_iff.mpr hprerelease)

theorem latestRelease_cases (candidates : List Release) :
    latestRelease candidates = none ∧ candidates = [] ∨
      ∃ release ∈ candidates, latestRelease candidates = some release ∧
        ∀ release' ∈ candidates, parseVersion release'.tagName ≤ parseVersion release.tagName := by
  unfold latestRelease
  have hsorted : (candidates.mergeSort fun r r' =>
      parseVersion r'.tagName ≤ parseVersion r.tagName).Pairwise
        fun r r' => parseVersion r'.tagName ≤ parseVersion r.tagName := by
    have hpairwise : (candidates.mergeSort fun r r' =>
        parseVersion r'.tagName ≤ parseVersion r.tagName).Pairwise
          fun r r' => decide (parseVersion r'.tagName ≤ parseVersion r.tagName) = true := by
      apply List.pairwise_mergeSort
      · intro a b c hab hbc
        exact decide_eq_true ((of_decide_eq_true hbc).trans (of_decide_eq_true hab))
      · intro a b
        simpa using le_total _ _
    exact hpairwise.imp of_decide_eq_true
  cases hlist : candidates.mergeSort fun r r' =>
      parseVersion r'.tagName ≤ parseVersion r.tagName with
  | nil =>
    refine .inl ⟨rfl, ?_⟩
    have hperm := List.mergeSort_perm candidates fun r r' =>
      parseVersion r'.tagName ≤ parseVersion r.tagName
    rw [hlist] at hperm
    exact hperm.nil_eq.symm
  | cons release rest =>
    rw [hlist] at hsorted
    have hmem (release' : Release) : release' ∈ candidates ↔ release' ∈ release :: rest := by
      rw [← hlist, List.mem_mergeSort]
    refine .inr ⟨release, (hmem release).mpr List.mem_cons_self, rfl, ?_⟩
    intro release' hrelease'
    rcases List.mem_cons.mp ((hmem release').mp hrelease') with rfl | hrest
    · exact le_rfl
    · exact (List.pairwise_cons.mp hsorted).1 release' hrest

theorem newer_iff {s t : String} {w : Version} (hs : Spells s v) (ht : Spells t w)
    (h : Compared s t v w) : Newer s t ↔ parseVersion t < parseVersion s := by
  rw [← compareVersions_pos_iff, h.gt_iff]
  constructor
  · rintro ⟨v', w', hv', hw', hlt⟩
    rwa [hs.unique hv', ht.unique hw']
  · exact fun hlt => ⟨v, w, hs, ht, hlt⟩

theorem updateInfo_cases (installation : Installation) (releases : List Release)
    (current : String) (includePrereleases includeDev : Bool) :
    candidates releases includePrereleases includeDev = [] ∧
        (updateInfo installation releases current includePrereleases includeDev).updateAvailable =
          false ∨
      ∃ release ∈ candidates releases includePrereleases includeDev,
        (∀ release' ∈ candidates releases includePrereleases includeDev,
          parseVersion release'.tagName ≤ parseVersion release.tagName) ∧
        (updateInfo installation releases current includePrereleases includeDev).updateAvailable =
            decide (parseVersion current < parseVersion release.tagName) ∧
          (updateInfo installation releases current includePrereleases includeDev).latestVersion =
            some (lstripV release.tagName) := by
  unfold updateInfo
  by_cases hempty : releases = []
  · rw [if_pos hempty, hempty]
    exact .inl ⟨rfl, rfl⟩
  · rw [if_neg hempty]
    rcases latestRelease_cases (candidates releases includePrereleases includeDev) with
      ⟨hnone, hno⟩ | ⟨latest, hlatest, hsome, hmax⟩
    · rw [hnone]
      exact .inl ⟨hno, rfl⟩
    · rw [hsome]
      refine .inr ⟨latest, hlatest, hmax, ?_, rfl⟩
      dsimp only
      rw [decide_eq_decide, compareVersions_pos_iff, parseVersion_lstripV]

theorem updateInfo_offersRightly {vs : List Version} (installation : Installation)
    (hcompares : ∀ v ∈ vs, ∀ w ∈ vs, ∀ s t, Spells s v → Spells t w → Compared s t v w)
    (hreleases : ∀ release ∈ releases, ∃ v ∈ vs, Spells release.tagName v)
    (hcurrent : ∃ v ∈ vs, Spells current v) :
    OffersRightly releases current includePrereleases includeDev (updateInfo installation releases
      current (includePrereleases || includeDev) includeDev) := by
  obtain ⟨w, hw, hwcurrent⟩ := hcurrent
  have hnewer (release : Release) (hrelease : release ∈ releases) :
      Newer release.tagName current ↔ parseVersion current < parseVersion release.tagName := by
    obtain ⟨v, hv, hvtag⟩ := hreleases release hrelease
    exact newer_iff hvtag hwcurrent (hcompares v hv w hw _ _ hvtag hwcurrent)
  have hcandidate (release : Release) : release ∈ candidates releases
      (includePrereleases || includeDev) includeDev ↔
        release ∈ releases ∧ Allowed includePrereleases includeDev release := by
    unfold candidates
    rw [List.mem_filter]
    constructor
    · rintro ⟨hrelease, h⟩
      obtain ⟨v, hv, hvtag⟩ := hreleases release hrelease
      exact ⟨hrelease, (isCandidate_iff hvtag).mp h⟩
    · rintro ⟨hrelease, h⟩
      obtain ⟨v, hv, hvtag⟩ := hreleases release hrelease
      exact ⟨hrelease, (isCandidate_iff hvtag).mpr h⟩
  rcases updateInfo_cases installation releases current (includePrereleases || includeDev)
    includeDev with ⟨hno, hfalse⟩ | ⟨latest, hlatest, hmax, havailable, hversion⟩
  · constructor
    case offered =>
      intro h
      rw [hfalse] at h
      cases h
    case notOffered =>
      intro _ release hrelease hallowed
      have hmem := (hcandidate release).mpr ⟨hrelease, hallowed⟩
      rw [hno] at hmem
      cases hmem
  · obtain ⟨hrelease, hallowed⟩ := (hcandidate latest).mp hlatest
    constructor
    case offered =>
      intro h
      rw [havailable, decide_eq_true_iff] at h
      refine ⟨latest, hrelease, hallowed, hversion, (hnewer latest hrelease).mpr h, ?_⟩
      intro release' hrelease' hallowed' hnewest
      obtain ⟨v, hv, hvtag⟩ := hreleases latest hrelease
      obtain ⟨v', hv', hvtag'⟩ := hreleases release' hrelease'
      have hlt := (newer_iff hvtag' hvtag (hcompares v' hv' v hv _ _ hvtag' hvtag)).mp hnewest
      exact absurd (hmax release' ((hcandidate release').mpr ⟨hrelease', hallowed'⟩))
        (not_le.mpr hlt)
    case notOffered =>
      intro h release hrelease' hallowed' hnewest
      rw [havailable, decide_eq_false_iff_not, not_lt] at h
      have hle := hmax release ((hcandidate release).mpr ⟨hrelease', hallowed'⟩)
      exact absurd ((hnewer release hrelease').mp hnewest) (not_lt.mpr (hle.trans h))

/-- Versions are ordered rightly exactly if each is kept in its place against every other. -/
theorem ordersRightly_iff (vs : List Version) :
    OrdersRightly vs ↔ ∀ v ∈ vs, ∀ w ∈ vs, OrderKept v w := by
  constructor
  · intro h v hv w hw
    obtain ⟨s, hs⟩ := exists_spells v
    obtain ⟨t, ht⟩ := exists_spells w
    exact ((compared_iff_orderKept hs ht).mp (h.compares v hv w hw s t hs ht)).1
  · intro h
    have hcompares : ∀ v ∈ vs, ∀ w ∈ vs, ∀ s t, Spells s v → Spells t w → Compared s t v w :=
      fun v hv w hw s t hs ht => (compared_iff_orderKept hs ht).mpr ⟨h v hv w hw, h w hw v hv⟩
    constructor
    case compares => exact hcompares
    case offers =>
      intro installation cache fetched current includePrereleases includeDev force now releases
        hfound hreleases hcurrent
      unfold checkForUpdates
      rcases hget : getReleases cache fetched force now with ⟨_ | found, cache'⟩
      · rw [hget] at hfound
        cases hfound
      · rw [hget] at hfound
        cases hfound
        exact updateInfo_offersRightly installation hcompares hreleases hcurrent

/-- The fiftieth version in development is compared as the first alpha. -/
theorem dev_offset_collides :
    ¬OrdersRightly [⟨[2, 1, 0], some (.dev, 50), by decide⟩,
      ⟨[2, 1, 0], some (.alpha, 0), by decide⟩] := by
  intro h
  obtain ⟨s, hs⟩ := exists_spells ⟨[2, 1, 0], some (.dev, 50), by decide⟩
  obtain ⟨t, ht⟩ := exists_spells ⟨[2, 1, 0], some (.alpha, 0), by decide⟩
  have hcompared := h.compares _ List.mem_cons_self _ (List.mem_cons_of_mem _ List.mem_cons_self)
    s t hs ht
  have hparsed : parseVersion s = parseVersion t := by
    rw [parseVersion_of_spells hs, parseVersion_of_spells ht]
    decide
  have hrank := hcompared.eq_iff.mp (compareVersions_eq_zero_iff.mpr hparsed)
  have hstage := (Prod.mk.inj (toLex.injective hrank)).2
  revert hstage
  decide

end Offers

end Updates

end CaManager
