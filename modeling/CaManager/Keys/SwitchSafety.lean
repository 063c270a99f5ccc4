import CaManager.Keys.Conversion
import CaManager.Library.Machines

/-!
# When switching is safe

Switching is safe in every run in which switches do not overlap, no other request stores, while a
switch is in progress, a text that would undo it, the keys can be converted, and nothing fails at
the wrong moment. An invariant says of each thread what holds while it is where it is.
-/

namespace CaManager

open Library Base64

namespace Switching

open MasterKey

section Conditions

def Job.IsSwitch : Job → Prop
  | .encryptAll _ => False
  | _ => True

def Thread.IsSwitch : Thread → Prop
  | .loading _ | .removing _ _ _ | .reloading _ _ _ => True
  | .authorities job | .certificates job _ | .committing job _ _ | .answering job _ => job.IsSwitch
  | _ => False

variable [FernetLibrary]

def Thread.Bears (file : Option String) (table : KeyTable) (text : String) : Thread → Prop
  | .loading _ => ∀ key ∈ file, ¬EncryptedUnder (stripSpaces key) text
  | .certificates (.enable _) _ => table = .cas → Sealed text
  | .certificates (.disable _) p => table = .cas → p.errors = [] → Open text
  | .committing (.enable _) _ _ => Sealed text
  | .committing (.disable _) _ p => p.errors = [] → Open text
  | .removing _ _ _ | .reloading _ _ _ => Open text
  | .answering job _ => job.Reached text
  | _ => True

def Thread.Careful (s : Server) (w : World) : Thread → Prop
  | .storing table _ prv =>
    w.fails = false → ∀ text ∈ prv, ∀ t ∈ s.threads, t.Bears s.site.file table text
  | .loading before =>
    (w.fails = true → s.site.file = before) ∧
      (w.fails = false →
        (KeyEncryption.reload (w.readFile s.site.file) s.site.env).isEnabled =
            false →
          if w.stuck then s.site.file = before else before = none)
  | .authorities (.enable before) =>
    if w.fails then s.site.file = before else Holds Encryptable s.site.cas
  | .authorities (.disable _) =>
    w.fails = false → Holds (Released s.site.loaded) s.site.cas ∨
      Holds (Refused s.site.loaded) s.site.cas
  | .certificates (.enable before) _ =>
    if w.fails then s.site.file = before else Holds Encryptable s.site.certificates
  | .certificates (.disable _) p =>
    w.fails = false → p.errors = [] ∧ Holds (Released s.site.loaded) s.site.certificates ∨
      p.updates = [] ∧ Holds (Refused s.site.loaded) s.site.certificates
  | .committing (.enable before) _ _ => w.fails = true → s.site.file = before
  | .committing (.encryptAll _) caUpdates p =>
    w.fails = false → ∀ t ∈ s.threads,
      (∀ u ∈ caUpdates, t.Bears s.site.file .cas u.2) ∧
        ∀ u ∈ p.updates, t.Bears s.site.file .certificates u.2
  | .removing _ _ wrote => w.fails = true → wrote = false
  | .reloading before _ wrote => w.fails = true → before = none ∧ wrote = false
  | _ => True

/-- The condition on a step: switches do not overlap, no other request stores a text that a switch
in progress cannot bear, and the keys can be converted. -/
def Careful (s : Server) : Event → Prop
  | .start (.enable key written) =>
    s.site.loaded.isEnabled = false → (∀ t ∈ s.threads, ¬t.IsSwitch) ∧
      match written with
      | .done => ∀ k, Holds (fun prv => ¬EncryptedUnder (stripSpaces (key ++ "\n")) prv)
          (s.site.table k)
      | .raised _ left => left = s.site.file
  | .start .disable => s.site.loaded.isEnabled = true → ∀ t ∈ s.threads, ¬t.IsSwitch
  | .start _ => True
  | .proceed i w => ∀ t ∈ s.threads[i]?, t.Careful s w

end Conditions

section Invariant

variable [FernetLibrary] {s : Site} {t : Thread}

def Thread.Sound (s : Site) : Thread → Prop
  | .loading _ => ∀ key ∈ s.file, ∀ k,
      Holds (fun prv => ¬EncryptedUnder (stripSpaces key) prv) (s.table k)
  | .authorities (.enable _) => s.loaded.isEnabled = true
  | .authorities (.disable before) => s.loaded.isEnabled = true ∧ s.file = before
  | .certificates (.enable _) p => s.loaded.isEnabled = true ∧ Covers Sealed s.cas p.updates
  | .certificates (.disable before) p =>
    s.file = before ∧ (p.errors = [] ∧ Covers Open s.cas p.updates ∨
      p.errors ≠ [] ∧ p.updates = [])
  | .committing (.enable _) caUpdates p =>
    Covers Sealed s.cas caUpdates ∧ Covers Sealed s.certificates p.updates
  | .committing (.disable before) caUpdates p =>
    s.file = before ∧
      (p.errors = [] ∧ Covers Open s.cas caUpdates ∧ Covers Open s.certificates p.updates ∨
        p.errors ≠ [] ∧ caUpdates = [] ∧ p.updates = [])
  | .removing before _ _ => s.file = before ∧ ∀ k, Holds Open (s.table k)
  | .reloading _ _ _ => s.file = none ∧ ∀ k, Holds Open (s.table k)
  | .answering job _ => ∀ k, Holds (fun prv => job.Reached prv) (s.table k)
  | _ => True

theorem sound_of_not_isSwitch (h : ¬t.IsSwitch) : t.Sound s := by
  cases t with
  | storing table place prv => trivial
  | loading before => exact absurd trivial h
  | authorities job =>
    cases job with
    | enable before => exact absurd trivial h
    | disable before => exact absurd trivial h
    | encryptAll dryRun => trivial
  | certificates job p =>
    cases job with
    | enable before => exact absurd trivial h
    | disable before => exact absurd trivial h
    | encryptAll dryRun => trivial
  | committing job caUpdates p =>
    cases job with
    | enable before => exact absurd trivial h
    | disable before => exact absurd trivial h
    | encryptAll dryRun => trivial
  | removing before p wrote => exact absurd trivial h
  | reloading before p wrote => exact absurd trivial h
  | answering job p =>
    cases job with
    | enable before => exact absurd trivial h
    | disable before => exact absurd trivial h
    | encryptAll dryRun => exact fun _ _ _ _ _ => trivial
  | finished => trivial

theorem Thread.Sound.of_kept {s' : Site} (h : t.Sound s) (hfile : s'.file = s.file)
    (hloaded : s'.loaded = s.loaded)
    (hkept : ∀ k, Kept (fun text => t.Bears s.file k text) (s.table k) (s'.table k)) :
    t.Sound s' := by
  cases t with
  | storing table place prv => trivial
  | loading before =>
    intro key hkey k
    rw [hfile] at hkey
    exact (h key hkey k).of_kept ((hkept k).imp fun prv hprv => hprv key hkey)
  | authorities job =>
    cases job with
    | enable before => exact (congrArg KeyEncryption.isEnabled hloaded).trans h
    | disable before =>
      exact ⟨(congrArg KeyEncryption.isEnabled hloaded).trans h.1, hfile.trans h.2⟩
    | encryptAll dryRun => trivial
  | certificates job p =>
    cases job with
    | enable before =>
      exact ⟨(congrArg KeyEncryption.isEnabled hloaded).trans h.1,
        h.2.of_kept ((hkept .cas).imp fun prv hprv => hprv rfl)⟩
    | disable before =>
      refine ⟨hfile.trans h.1, h.2.imp_left fun ⟨herrors, hcovers⟩ => ⟨herrors, ?_⟩⟩
      exact hcovers.of_kept ((hkept .cas).imp fun prv hprv => hprv rfl herrors)
    | encryptAll dryRun => trivial
  | committing job caUpdates p =>
    cases job with
    | enable before => exact ⟨h.1.of_kept (hkept .cas), h.2.of_kept (hkept .certificates)⟩
    | disable before =>
      refine ⟨hfile.trans h.1, h.2.imp_left fun ⟨herrors, hcas, hcertificates⟩ => ?_⟩
      refine ⟨herrors, hcas.of_kept ((hkept .cas).imp fun prv hprv => hprv herrors), ?_⟩
      exact hcertificates.of_kept ((hkept .certificates).imp fun prv hprv => hprv herrors)
    | encryptAll dryRun => trivial
  | removing before p wrote => exact ⟨hfile.trans h.1, fun k => (h.2 k).of_kept (hkept k)⟩
  | reloading before p wrote => exact ⟨hfile.trans h.1, fun k => (h.2 k).of_kept (hkept k)⟩
  | answering job p => exact fun k => (h k).of_kept (hkept k)
  | finished => trivial

theorem safe_of_unanswered {tr : Transition} (hanswer : tr.answer = none)
    (hfile : tr.site.file = none → s.file = none) : Safe s tr where
  removed key hkey hnone := by
    rw [hfile hnone] at hkey
    cases hkey
  failed a ha := by
    rw [hanswer] at ha
    cases ha
  succeeded a ha := by
    rw [hanswer] at ha
    cases ha

theorem safe_of_failed {tr : Transition} {a : Answer} (hanswer : tr.answer = some a)
    (hstatus : a.status ≠ 200) (hbefore : ∀ before ∈ a.job.before, tr.site.file = before)
    (hwrote : tr.wrote = false) (hfile : tr.site.file = none → s.file = none) : Safe s tr where
  removed key hkey hnone := by
    rw [hfile hnone] at hkey
    cases hkey
  failed a' ha' _ before hjob := by
    cases hanswer.symm.trans ha'
    exact ⟨hbefore before hjob, hwrote⟩
  succeeded a' ha' hok := by
    cases hanswer.symm.trans ha'
    exact absurd hok hstatus

theorem safe_of_raised {job : Job} {permission wrote : Bool} {s' : Site}
    (hfile : s'.file = s.file) (hbefore : ∀ before ∈ job.before, s.file = before)
    (hwrote : wrote = false) :
    Safe s { site := s', answer := some (job.raised permission), wrote } := by
  refine safe_of_failed rfl (Job.status_raised job permission) (fun before hjob => ?_) hwrote
    fun hnone => hfile ▸ hnone
  rw [Job.job_raised] at hjob
  exact hfile.trans (hbefore before hjob)

theorem safe_answering {job : Job} (p : Progress)
    (h : ∀ k, Holds (fun prv => job.Reached prv) (s.table k)) :
    Safe s { site := s, answer := some (job.succeeded p) } where
  removed key hkey hnone := by
    cases hkey.symm.trans hnone
  failed a ha hstatus := by
    cases ha
    exact absurd (job.status_succeeded p) hstatus
  succeeded a ha _ k r hr prv hprv := by
    cases ha
    rw [Job.job_succeeded]
    exact h k r hr prv hprv

end Invariant

section Threads

variable [FernetLibrary] {s : Server} {w : World} {before : Option String} {p : Progress}
  {caUpdates : List (ℕ × String)} {wrote : Bool}

def Thread.StepsSafely (s : Server) (w : World) (t : Thread) : Prop :=
  Safe s.site (t.proceed w s.site) ∧
    (t.proceed w s.site).thread.Sound (t.proceed w s.site).site

theorem loading_stepsSafely (h : (Thread.loading before).Sound s.site)
    (hcareful : (Thread.loading before).Careful s w) :
    (Thread.loading before).StepsSafely s w := by
  obtain ⟨hraised, hunloaded⟩ := hcareful
  unfold Thread.StepsSafely Thread.proceed
  dsimp only
  split_ifs with hfails henabled hstuck
  · refine ⟨safe_of_raised rfl (fun before' hbefore => ?_) rfl, trivial⟩
    exact (hraised hfails).trans (Option.some.inj hbefore)
  · exact ⟨safe_of_unanswered rfl id, henabled⟩
  · have hfile := hunloaded (Bool.eq_false_iff.mpr hfails) (Bool.eq_false_iff.mpr henabled)
    rw [if_pos hstuck] at hfile
    refine ⟨safe_of_raised rfl (fun before' hbefore => ?_) rfl, trivial⟩
    exact hfile.trans (Option.some.inj hbefore)
  · have hnone := hunloaded (Bool.eq_false_iff.mpr hfails) (Bool.eq_false_iff.mpr henabled)
    rw [if_neg hstuck] at hnone
    refine ⟨⟨fun key hkey _ k => h key hkey k, fun a ha _ before' hbefore => ?_,
      fun a ha hok => ?_⟩, trivial⟩
    · cases ha
      exact ⟨hnone.symm.trans (Option.some.inj hbefore), rfl⟩
    · cases ha
      cases hok

theorem authorities_enable_stepsSafely (h : (Thread.authorities (.enable before)).Sound s.site)
    (hcareful : (Thread.authorities (.enable before)).Careful s w) :
    (Thread.authorities (.enable before)).StepsSafely s w := by
  have henabled : ¬s.site.loaded.isEnabled = false := Bool.not_eq_false _ ▸ h
  unfold Thread.StepsSafely Thread.proceed
  dsimp only
  rw [if_neg henabled]
  unfold Thread.Careful at hcareful
  dsimp only at hcareful
  split_ifs at hcareful ⊢ with hfails
  · refine ⟨safe_of_raised rfl (fun before' hbefore => ?_) rfl, trivial⟩
    exact hcareful.trans (Option.some.inj hbefore)
  · exact ⟨safe_of_unanswered rfl id, h, covers_enable h rfl hcareful⟩

theorem certificates_enable_stepsSafely
    (h : (Thread.certificates (.enable before) p).Sound s.site)
    (hcareful : (Thread.certificates (.enable before) p).Careful s w) :
    (Thread.certificates (.enable before) p).StepsSafely s w := by
  have hjob : Job.enable before ≠ .encryptAll true := fun heq => nomatch heq
  unfold Thread.StepsSafely Thread.proceed
  unfold Thread.Careful at hcareful
  dsimp only at hcareful ⊢
  rw [if_neg hjob]
  split_ifs at hcareful ⊢ with hfails
  · refine ⟨safe_of_raised rfl (fun before' hbefore => ?_) rfl, trivial⟩
    exact hcareful.trans (Option.some.inj hbefore)
  · exact ⟨safe_of_unanswered rfl id, h.2, covers_enable h.1 rfl hcareful⟩

theorem committing_enable_stepsSafely
    (h : (Thread.committing (.enable before) caUpdates p).Sound s.site)
    (hcareful : (Thread.committing (.enable before) caUpdates p).Careful s w) :
    (Thread.committing (.enable before) caUpdates p).StepsSafely s w := by
  unfold Thread.StepsSafely Thread.proceed
  dsimp only
  split_ifs with hfails
  · refine ⟨safe_of_raised rfl (fun before' hbefore => ?_) rfl, trivial⟩
    exact (hcareful hfails).trans (Option.some.inj hbefore)
  · refine ⟨safe_of_unanswered rfl id, fun k => ?_⟩
    cases k with
    | cas => exact h.1.writeUpdates
    | certificates => exact h.2.writeUpdates

theorem authorities_disable_stepsSafely (h : (Thread.authorities (.disable before)).Sound s.site)
    (hcareful : (Thread.authorities (.disable before)).Careful s w) :
    (Thread.authorities (.disable before)).StepsSafely s w := by
  obtain ⟨henabled, hfile⟩ := h
  unfold Thread.StepsSafely Thread.proceed
  dsimp only
  rw [if_neg (by rw [henabled]; exact Bool.noConfusion)]
  split_ifs with hfails
  · refine ⟨safe_of_raised rfl (fun before' hbefore => ?_) rfl, trivial⟩
    exact hfile.trans (Option.some.inj hbefore)
  · refine ⟨safe_of_unanswered rfl id, hfile, ?_⟩
    rcases hcareful (Bool.eq_false_iff.mpr hfails) with hreleased | hrefused
    · obtain ⟨hcovers, herrors⟩ := covers_disable w.draws "CA" before {} rfl hreleased
      exact .inl ⟨herrors, hcovers⟩
    · obtain ⟨hidle, hopen⟩ := idle_disable w.draws "CA" before {} rfl hrefused
      by_cases herrors : (convertRows s.site.loaded w.draws (.disable before) "CA" s.site.cas
          {}).errors = []
      · exact .inl ⟨herrors, (hopen herrors).2⟩
      · exact .inr ⟨herrors, hidle⟩

theorem certificates_disable_stepsSafely
    (h : (Thread.certificates (.disable before) p).Sound s.site)
    (hcareful : (Thread.certificates (.disable before) p).Careful s w) :
    (Thread.certificates (.disable before) p).StepsSafely s w := by
  obtain ⟨hfile, hcas⟩ := h
  have hjob : Job.disable before ≠ .encryptAll true := fun heq => nomatch heq
  unfold Thread.StepsSafely Thread.proceed
  dsimp only
  rw [if_neg hjob]
  split_ifs with hfails
  · refine ⟨safe_of_raised rfl (fun before' hbefore => ?_) rfl, trivial⟩
    exact hfile.trans (Option.some.inj hbefore)
  · refine ⟨safe_of_unanswered rfl id, hfile, ?_⟩
    rcases hcareful (Bool.eq_false_iff.mpr hfails) with ⟨hnone, hreleased⟩ | ⟨hidle, hrefused⟩
    · obtain ⟨hcovers, herrors⟩ := covers_disable w.draws "Certificate" before
        { p with updates := [] } rfl hreleased
      have hcas' := (hcas.resolve_right fun hfailed => hfailed.1 hnone).2
      exact .inl ⟨herrors.trans hnone, hcas', hcovers⟩
    · obtain ⟨hidle', hopen⟩ := idle_disable w.draws "Certificate" before
        { p with updates := [] } rfl hrefused
      by_cases herrors : (convertRows s.site.loaded w.draws (.disable before) "Certificate"
          s.site.certificates { p with updates := [] }).errors = []
      · have hcas' := (hcas.resolve_right fun hfailed => hfailed.1 (hopen herrors).1).2
        exact .inl ⟨herrors, hcas', (hopen herrors).2⟩
      · exact .inr ⟨herrors, hidle, hidle'⟩

theorem committing_disable_stepsSafely
    (h : (Thread.committing (.disable before) caUpdates p).Sound s.site) :
    (Thread.committing (.disable before) caUpdates p).StepsSafely s w := by
  obtain ⟨hfile, hcovers⟩ := h
  unfold Thread.StepsSafely Thread.proceed
  dsimp only
  split_ifs with hfails
  · refine ⟨safe_of_raised rfl (fun before' hbefore => ?_) rfl, trivial⟩
    exact hfile.trans (Option.some.inj hbefore)
  · unfold afterLoops
    dsimp only
    rcases hcovers with ⟨herrors, hcas, hcertificates⟩ | ⟨herrors, rfl, hidle⟩
    · rw [if_pos herrors]
      refine ⟨safe_of_unanswered rfl id, hfile, fun k => ?_⟩
      cases k with
      | cas => exact hcas.writeUpdates
      | certificates => exact hcertificates.writeUpdates
    · -- without updates the commit changes nothing
      rw [if_neg herrors, hidle]
      refine ⟨safe_of_failed rfl (by simp) (fun before' hbefore => ?_) ?_ id, trivial⟩
      · exact hfile.trans (Option.some.inj hbefore)
      · exact decide_eq_false fun hne => hne rfl

theorem removing_stepsSafely (h : (Thread.removing before p wrote).Sound s.site)
    (hcareful : (Thread.removing before p wrote).Careful s w) :
    (Thread.removing before p wrote).StepsSafely s w := by
  obtain ⟨hfile, hopen⟩ := h
  unfold Thread.StepsSafely Thread.proceed
  dsimp only
  split_ifs with hfails
  · refine ⟨safe_of_raised rfl (fun before' hbefore => ?_) (hcareful hfails), trivial⟩
    exact hfile.trans (Option.some.inj hbefore)
  · refine ⟨⟨fun key _ _ k r hr prv hprv => not_encryptedUnder (hopen k r hr prv hprv),
      fun a ha => ?_, fun a ha => ?_⟩, rfl, fun k => ?_⟩
    · cases ha
    · cases ha
    · cases k with
      | cas => exact hopen .cas
      | certificates => exact hopen .certificates

theorem reloading_stepsSafely (h : (Thread.reloading before p wrote).Sound s.site)
    (hcareful : (Thread.reloading before p wrote).Careful s w) :
    (Thread.reloading before p wrote).StepsSafely s w := by
  obtain ⟨hfile, hopen⟩ := h
  unfold Thread.StepsSafely Thread.proceed
  dsimp only
  split_ifs with hfails
  · obtain ⟨hbefore, hwrote⟩ := hcareful hfails
    refine ⟨safe_of_raised rfl (fun before' hbefore' => ?_) hwrote, trivial⟩
    exact hfile.trans (hbefore.symm.trans (Option.some.inj hbefore'))
  · refine ⟨safe_of_unanswered rfl id, fun k => ?_⟩
    cases k with
    | cas => exact hopen .cas
    | certificates => exact hopen .certificates

theorem Thread.Sound.stepsSafely {t : Thread} (h : t.Sound s.site) (hswitch : t.IsSwitch)
    (hcareful : t.Careful s w) : t.StepsSafely s w := by
  cases t with
  | storing table place prv => exact hswitch.elim
  | loading before => exact loading_stepsSafely h hcareful
  | authorities job =>
    cases job with
    | enable before => exact authorities_enable_stepsSafely h hcareful
    | disable before => exact authorities_disable_stepsSafely h hcareful
    | encryptAll dryRun => exact hswitch.elim
  | certificates job p =>
    cases job with
    | enable before => exact certificates_enable_stepsSafely h hcareful
    | disable before => exact certificates_disable_stepsSafely h hcareful
    | encryptAll dryRun => exact hswitch.elim
  | committing job caUpdates p =>
    cases job with
    | enable before => exact committing_enable_stepsSafely h hcareful
    | disable before => exact committing_disable_stepsSafely h
    | encryptAll dryRun => exact hswitch.elim
  | removing before p wrote => exact removing_stepsSafely h hcareful
  | reloading before p wrote => exact reloading_stepsSafely h hcareful
  | answering job p => exact ⟨safe_answering p h, trivial⟩
  | finished => exact hswitch.elim

/-- The step of a request that is no switch: it is safe, and stores only what the threads bear. -/
structure Considerate (s : Server) (tr : Transition) : Prop where
  safe : Safe s.site tr
  thread : ¬tr.thread.IsSwitch
  file : tr.site.file = s.site.file
  loaded : tr.site.loaded = s.site.loaded
  kept : ∀ t ∈ s.threads, ∀ k,
    Kept (fun text => t.Bears s.site.file k text) (s.site.table k) (tr.site.table k)

theorem considerate_of_idle {tr : Transition} (hsafe : Safe s.site tr) (hsite : tr.site = s.site)
    (hthread : ¬tr.thread.IsSwitch) : Considerate s tr where
  safe := hsafe
  thread := hthread
  file := by rw [hsite]
  loaded := by rw [hsite]
  kept t _ k := by
    rw [hsite]
    exact kept_refl

theorem considerate_of_raised (dryRun : Bool) :
    Considerate s { site := s.site, answer := some ((Job.encryptAll dryRun).raised false) } :=
  considerate_of_idle (safe_of_raised rfl (fun _ hbefore => nomatch hbefore) rfl) rfl id

theorem considerate_of_unanswered {t : Thread} (ht : ¬t.IsSwitch) :
    Considerate s { site := s.site, thread := t } :=
  considerate_of_idle (safe_of_unanswered rfl id) rfl ht

theorem storing_considerate {table : KeyTable} {place : Place} {prv : Option String}
    (hcareful : (Thread.storing table place prv).Careful s w) :
    Considerate s ((Thread.storing table place prv).proceed w s.site) := by
  unfold Thread.proceed
  dsimp only
  split_ifs with hfails
  · exact considerate_of_unanswered id
  · have hbears := hcareful (Bool.eq_false_iff.mpr hfails)
    cases table with
    | cas =>
      refine ⟨safe_of_unanswered rfl id, id, rfl, rfl, fun t ht k => ?_⟩
      cases k with
      | cas => exact kept_storeKey place fun text htext => hbears text htext t ht
      | certificates => exact kept_refl
    | certificates =>
      refine ⟨safe_of_unanswered rfl id, id, rfl, rfl, fun t ht k => ?_⟩
      cases k with
      | cas => exact kept_refl
      | certificates => exact kept_storeKey place fun text htext => hbears text htext t ht

theorem committing_considerate {dryRun : Bool}
    (hcareful : (Thread.committing (.encryptAll dryRun) caUpdates p).Careful s w) :
    Considerate s ((Thread.committing (.encryptAll dryRun) caUpdates p).proceed w s.site) := by
  unfold Thread.proceed
  dsimp only
  split_ifs with hfails
  · exact considerate_of_raised dryRun
  · have hbears := hcareful (Bool.eq_false_iff.mpr hfails)
    refine ⟨safe_of_unanswered rfl id, id, rfl, rfl, fun t ht k => ?_⟩
    cases k with
    | cas => exact kept_writeUpdates (hbears t ht).1
    | certificates => exact kept_writeUpdates (hbears t ht).2

theorem considerate_of_not_isSwitch {t : Thread} (h : ¬t.IsSwitch) (hcareful : t.Careful s w) :
    Considerate s (t.proceed w s.site) := by
  cases t with
  | storing table place prv => exact storing_considerate hcareful
  | loading before => exact absurd trivial h
  | authorities job =>
    cases job with
    | enable before => exact absurd trivial h
    | disable before => exact absurd trivial h
    | encryptAll dryRun =>
      unfold Thread.proceed
      dsimp only
      split_ifs
      · exact considerate_of_unanswered h
      · exact considerate_of_raised dryRun
      · exact considerate_of_unanswered h
  | certificates job p =>
    cases job with
    | enable before => exact absurd trivial h
    | disable before => exact absurd trivial h
    | encryptAll dryRun =>
      unfold Thread.proceed
      dsimp only
      split_ifs
      · exact considerate_of_raised dryRun
      · exact considerate_of_unanswered h
      · exact considerate_of_unanswered h
  | committing job caUpdates p =>
    cases job with
    | enable before => exact absurd trivial h
    | disable before => exact absurd trivial h
    | encryptAll dryRun => exact committing_considerate hcareful
  | removing before p wrote => exact absurd trivial h
  | reloading before p wrote => exact absurd trivial h
  | answering job p =>
    cases job with
    | enable before => exact absurd trivial h
    | disable before => exact absurd trivial h
    | encryptAll dryRun =>
      exact considerate_of_idle (safe_answering p fun _ _ _ _ _ => trivial) rfl id
  | finished => exact considerate_of_unanswered id

end Threads

section Runs

variable [FernetLibrary] {s : Server} {e : Event}

namespace Server

/-- Every thread is sound, and at most one is a switch. -/
structure Sound (s : Server) : Prop where
  threads : ∀ (i : ℕ) (t : Thread), s.threads[i]? = some t → t.Sound s.site
  alone : ∀ (i j : ℕ) (t t' : Thread), s.threads[i]? = some t → s.threads[j]? = some t' → t.IsSwitch →
    t'.IsSwitch → i = j

def index (s : Server) : Event → ℕ
  | .start _ => s.threads.length
  | .proceed i _ => i

theorem getElem?_step {j : ℕ} {t : Thread} (h : (s.step e).threads[j]? = some t) :
    (j = s.index e ∧ t = (s.transition e).thread) ∨
      (j ≠ s.index e ∧ s.threads[j]? = some t) := by
  cases e with
  | start r =>
    change (s.threads ++ [_])[j]? = some t at h
    rcases lt_trichotomy j s.threads.length with hlt | heq | hgt
    · rw [List.getElem?_append_left hlt] at h
      exact .inr ⟨hlt.ne, h⟩
    · rw [heq, List.getElem?_concat_length] at h
      exact .inl ⟨heq, (Option.some.inj h).symm⟩
    · have hlength : (s.threads ++ [(s.transition (.start r)).thread]).length ≤ j := by
        rw [List.length_append, List.length_singleton]
        exact hgt
      rw [List.getElem?_eq_none hlength] at h
      cases h
  | proceed i w =>
    change (s.threads.set i _)[j]? = some t at h
    rw [List.getElem?_set] at h
    split_ifs at h with hij hlt
    · exact .inl ⟨hij.symm, (Option.some.inj h).symm⟩
    · exact .inr ⟨Ne.symm hij, h⟩

theorem Sound.of_considerate (h : s.Sound) (hconsiderate : Considerate s (s.transition e)) :
    (s.step e).Sound := by
  constructor
  · intro j t ht
    rcases getElem?_step ht with ⟨-, rfl⟩ | ⟨-, hold⟩
    · exact sound_of_not_isSwitch hconsiderate.thread
    · exact (h.threads j t hold).of_kept hconsiderate.file hconsiderate.loaded
        (hconsiderate.kept t (List.mem_of_getElem? hold))
  · intro i j t t' ht ht' hswitch hswitch'
    rcases getElem?_step ht with ⟨-, rfl⟩ | ⟨-, hold⟩
    · exact absurd hswitch hconsiderate.thread
    · rcases getElem?_step ht' with ⟨-, rfl⟩ | ⟨-, hold'⟩
      · exact absurd hswitch' hconsiderate.thread
      · exact h.alone i j t t' hold hold' hswitch hswitch'

theorem Sound.of_alone
    (hothers : ∀ (j : ℕ) (t : Thread), j ≠ s.index e → s.threads[j]? = some t → ¬t.IsSwitch)
    (hnew : (s.transition e).thread.Sound (s.transition e).site) : (s.step e).Sound := by
  constructor
  · intro j t ht
    rcases getElem?_step ht with ⟨-, rfl⟩ | ⟨hne, hold⟩
    · exact hnew
    · exact sound_of_not_isSwitch (hothers j t hne hold)
  · intro i j t t' ht ht' hswitch hswitch'
    rcases getElem?_step ht with ⟨hi, -⟩ | ⟨hne, hold⟩
    · rcases getElem?_step ht' with ⟨hj, -⟩ | ⟨hne', hold'⟩
      · rw [hi, hj]
      · exact absurd hswitch' (hothers j t' hne' hold')
    · exact absurd hswitch (hothers i t hne hold)

theorem Sound.step_proceed {i : ℕ} {w : World} (h : s.Sound)
    (hcareful : Careful s (.proceed i w)) :
    Safe s.site (s.transition (.proceed i w)) ∧ (s.step (.proceed i w)).Sound := by
  cases hi : s.threads[i]? with
  | none =>
    have htransition : s.transition (.proceed i w) = { site := s.site } := by
      simp only [transition, hi, Option.getD_none]
      rfl
    have hidle : Considerate s (s.transition (.proceed i w)) := by
      rw [htransition]
      exact considerate_of_unanswered id
    exact ⟨hidle.safe, h.of_considerate hidle⟩
  | some t =>
    have htransition : s.transition (.proceed i w) = t.proceed w s.site := by
      simp only [transition, hi, Option.getD_some]
    by_cases hswitch : t.IsSwitch
    · obtain ⟨hsafe, hsound⟩ := (h.threads i t hi).stepsSafely hswitch (hcareful t hi)
      rw [← htransition] at hsafe hsound
      refine ⟨hsafe, Sound.of_alone (fun j t' hne hj hswitch' => ?_) hsound⟩
      exact hne (h.alone j i t' t hj hi hswitch' hswitch)
    · have hconsiderate := considerate_of_not_isSwitch hswitch (hcareful t hi)
      rw [← htransition] at hconsiderate
      exact ⟨hconsiderate.safe, h.of_considerate hconsiderate⟩

theorem Sound.step_start {r : Request} (h : s.Sound) (hcareful : Careful s (.start r)) :
    Safe s.site (s.transition (.start r)) ∧ (s.step (.start r)).Sound := by
  have hidle {tr : Transition} (htransition : s.transition (.start r) = tr)
      (hconsiderate : Considerate s tr) :
      Safe s.site (s.transition (.start r)) ∧ (s.step (.start r)).Sound := by
    rw [← htransition] at hconsiderate
    exact ⟨hconsiderate.safe, h.of_considerate hconsiderate⟩
  cases r with
  | store table place prv encrypts draw => exact hidle rfl (considerate_of_unanswered id)
  | encryptAll dryRun => exact hidle rfl (considerate_of_unanswered id)
  | enable key written =>
    by_cases henabled : s.site.loaded.isEnabled = true
    · refine hidle (if_pos henabled) (considerate_of_idle ?_ rfl id)
      exact safe_of_failed rfl (by simp) (fun before hbefore => Option.some.inj hbefore) rfl id
    · obtain ⟨hothers, hwritten⟩ := hcareful (Bool.eq_false_iff.mpr henabled)
      cases written with
      | done =>
        have htransition : s.transition (.start (.enable key .done)) =
            { site := { s.site with file := some (key ++ "\n") }, thread := .loading s.site.file } :=
          if_neg henabled
        refine ⟨?_, Sound.of_alone (fun j t _ hj => hothers t (List.mem_of_getElem? hj)) ?_⟩
        · rw [htransition]
          exact safe_of_unanswered rfl fun hnone => nomatch hnone
        · rw [htransition]
          intro key' hkey' k
          cases hkey'
          cases k with
          | cas => exact hwritten .cas
          | certificates => exact hwritten .certificates
      | raised permission left =>
        obtain rfl : left = s.site.file := hwritten
        refine hidle (if_neg henabled) (considerate_of_idle ?_ rfl id)
        exact safe_of_raised rfl (fun before hbefore => Option.some.inj hbefore) rfl
  | disable =>
    by_cases henabled : s.site.loaded.isEnabled = true
    · have htransition : s.transition (.start .disable) =
          { site := s.site, thread := .authorities (.disable s.site.file) } := if_pos henabled
      have hothers := hcareful henabled
      refine ⟨?_, Sound.of_alone (fun j t _ hj => hothers t (List.mem_of_getElem? hj)) ?_⟩
      · rw [htransition]
        exact safe_of_unanswered rfl id
      · rw [htransition]
        exact ⟨henabled, rfl⟩
    · refine hidle (if_neg henabled) (considerate_of_idle ?_ rfl id)
      exact safe_of_failed rfl (by simp) (fun before hbefore => Option.some.inj hbefore) rfl id

theorem Sound.of_careful (h : s.Sound) (hcareful : Careful s e) :
    Safe s.site (s.transition e) ∧ (s.step e).Sound := by
  cases e with
  | start r => exact h.step_start hcareful
  | proceed i w => exact h.step_proceed hcareful

end Server

end Runs

section Sample

@[reducible] def sampleFernet : FernetLibrary where
  accepts key := key ≠ ""
  encrypt key _ data := key.toList.map (fun c => UInt8.ofNat c.toNat) ++ data
  decrypt key token :=
    let header := key.toList.map fun c => UInt8.ofNat c.toNat
    if header.isPrefixOf token then some (token.drop header.length) else none

def plainServer : Server where
  site :=
    { cas := (∅ : Table KeyRow).insert { refid := "root", prv := some (b64encode [1, 2, 3]) }
      certificates := ∅ }

def enabling : List Event :=
  [.start (.enable "K" .done), .proceed 0 {}, .proceed 0 {}, .proceed 0 {}, .proceed 0 {},
    .proceed 0 {}]

def twoKeys : Server where
  site :=
    { cas := ((∅ : Table KeyRow).insert
        { refid := "old", prv := some (b64encode (encryptedMarker ++ [79, 1])) }).insert
        { refid := "new", prv := some (b64encode (encryptedMarker ++ [75, 2])) }
      certificates := ∅
      file := some "K\n"
      loaded := { fernet := some "K", keySource := some .file } }

def disabling : List Event :=
  [.start .disable, .proceed 0 {}, .proceed 0 {}, .proceed 0 {}]

end Sample

end Switching

end CaManager
