import CaManager.Discovery.Scans

/-!
# When discovery scans run

The permits bound how many scans there are. Nothing bounds how many there are of one profile, and
when a profile is due again is not written before a scan of it has come to its end: until then,
and when a scan fails, the scheduler finds it due at each wake-up. The conditions below say of
every run of a scan when it may be recorded.
-/

namespace CaManager

open Library

namespace Discovery

def State.initial (clock : Time) (profiles : Table ScanProfile) : State :=
  { clock, profiles }

def State.scheduledStarts (s : State) (p : ℕ) : List Time :=
  (s.runs.select fun r => r.triggeredBy = .scheduled ∧ r.scanProfileId = some p).map
    ScanRun.startedAt

/-- At most one scan of a profile is in progress, its scheduled scans are apart, the scans are
within the limit, and a permit that was acquired has been released once or is released when the
scan that holds it goes on to its end. -/
structure Orderly (s : State) : Prop where
  exclusive : ∀ x ∈ s.scans, ∀ y ∈ s.scans, x.inProgress → y.inProgress →
    ∀ p, x.profileId = some p → y.profileId = some p → x = y
  apart : ∀ profile ∈ s.profiles,
    (s.scheduledStarts profile.id).Pairwise fun t t' => t + profile.interval ≤ t'
  limited : s.scans.length ≤ maxConcurrentScans
  released : (s.history.released ++ s.scans.map Scan.ticket).Perm (List.range s.history.acquired)
  returned : ∀ x ∈ s.scans,
    x.ticket ∈ (run step s (List.replicate 6 (.advance x.ticket))).history.released

/-- No scan of the profile is in progress. If the scheduler starts the scan, its last scan of the
profile had been settled at the wake-up, or was long enough ago. -/
def Admissible (s : State) (x : Scan) : Prop :=
  ∀ p, x.profileId = some p →
    (∀ y ∈ s.scans, y.inProgress → y.profileId ≠ some p) ∧
      (x.triggeredBy = .scheduled → p ∈ s.history.fresh ∨
        ∀ profile ∈ s.profiles, profile.id = p →
          ∀ t ∈ s.scheduledStarts p, t + profile.interval ≤ s.clock)

def Proper (s : State) : Event → Prop
  | .advance ticket => ∀ x, s.scan? ticket = some x → x.stage = .preparing → Admissible s x
  | _ => True

section Scans

variable {s : State} {x y : Scan} {ticket : ℕ} {stage : Stage}

theorem State.mem_of_scan? (h : s.scan? ticket = some x) : x ∈ s.scans :=
  List.mem_of_find?_eq_some h

theorem State.ticket_of_scan? (h : s.scan? ticket = some x) : x.ticket = ticket := by
  simpa using List.find?_some h

theorem State.exists_of_mem_setStage (h : y ∈ (s.setStage ticket stage).scans) :
    (y ∈ s.scans ∧ y.ticket ≠ ticket) ∨
      ∃ x ∈ s.scans, x.ticket = ticket ∧ y = { x with stage } := by
  obtain ⟨x, hx, rfl⟩ := List.mem_map.mp h
  by_cases hticket : x.ticket = ticket
  · exact .inr ⟨x, hx, hticket, if_pos hticket⟩
  · rw [if_neg hticket]
    exact .inl ⟨hx, hticket⟩

theorem State.tickets_setStage :
    (s.setStage ticket stage).scans.map Scan.ticket = s.scans.map Scan.ticket := by
  change (s.scans.map _).map Scan.ticket = _
  rw [List.map_map]
  refine List.map_congr_left fun x _ => ?_
  rw [Function.comp_apply, apply_ite Scan.ticket, ite_self]

theorem State.scan?_setStage :
    (s.setStage ticket stage).scan? ticket = (s.scan? ticket).map fun x => { x with stage } := by
  have hsame : ((fun x : Scan => decide (x.ticket = ticket)) ∘
      fun x => if x.ticket = ticket then { x with stage } else x) =
        fun x => decide (x.ticket = ticket) := by
    funext x
    rw [Function.comp_apply, apply_ite Scan.ticket, ite_self]
  unfold State.scan? State.setStage
  rw [List.find?_map, hsame]
  cases hfind : s.scans.find? fun x => decide (x.ticket = ticket) with
  | none => rfl
  | some x =>
    have hticket : x.ticket = ticket := State.ticket_of_scan? hfind
    exact congrArg some (if_pos hticket)

theorem State.mem_release : y ∈ (s.release ticket).scans ↔ y ∈ s.scans ∧ y.ticket ≠ ticket := by
  unfold State.release
  rw [List.mem_filter, decide_eq_true_iff]

end Scans

section Permits

variable {s : State} {x : Scan} {ticket n : ℕ} {stage : Stage} {e : Event}

def Permitted (s : State) : Prop :=
  Conserved maxConcurrentScans s.permits s.history.acquired s.history.released
    (s.scans.map Scan.ticket)

theorem Permitted.eq_of_ticket {y : Scan} (h : Permitted s) (hx : x ∈ s.scans) (hy : y ∈ s.scans)
    (hticket : x.ticket = y.ticket) : x = y :=
  List.inj_on_of_nodup_map h.held_nodup hx hy hticket

theorem Permitted.scan?_ticket (h : Permitted s) (hx : x ∈ s.scans) :
    s.scan? x.ticket = some x := by
  obtain ⟨y, hy⟩ : ∃ y, s.scan? x.ticket = some y := by
    rw [← Option.isSome_iff_exists]
    exact List.find?_isSome.mpr ⟨x, hx, decide_eq_true rfl⟩
  rw [hy, h.eq_of_ticket hx (State.mem_of_scan? hy) (State.ticket_of_scan? hy).symm]

theorem Permitted.startScan {profileId : Option ℕ} {triggeredBy : ScanTrigger}
    (h : Permitted s) : Permitted (s.startScan profileId triggeredBy) := by
  unfold State.startScan
  split_ifs with hpermits
  · exact h
  · unfold Permitted
    rw [List.map_append]
    exact Conserved.take h (Nat.pos_of_ne_zero hpermits)

theorem Permitted.setStage (h : Permitted s) : Permitted (s.setStage ticket stage) := by
  unfold Permitted
  rw [State.tickets_setStage]
  exact h

theorem Permitted.release (h : Permitted s) (hx : x ∈ s.scans) : Permitted (s.release x.ticket) := by
  have hheld : (s.release x.ticket).scans.map Scan.ticket =
      (s.scans.map Scan.ticket).erase x.ticket := by
    rw [h.held_nodup.erase_eq_filter, List.filter_map]
    exact congrArg _ (List.filter_congr fun y _ => by simp [bne, beq_eq_decide])
  unfold Permitted
  rw [hheld]
  exact Conserved.release h (List.mem_map_of_mem hx)

theorem Permitted.settle {runId : ℕ} {now : Time} (h : Permitted s) :
    Permitted (s.settle x runId now) := by
  unfold State.settle
  split
  · exact h.setStage
  · exact h.setStage

theorem Permitted.advance (h : Permitted s) (hx : x ∈ s.scans) : Permitted (s.advance x) := by
  unfold State.advance
  split
  · exact h.setStage
  · exact h.setStage
  · split
    · exact h.release hx
    · exact h.setStage
  · exact h.setStage
  · exact h.settle
  · exact h.release hx

theorem Permitted.fail {marks : Bool} (h : Permitted s) (hx : x ∈ s.scans) :
    Permitted (s.fail x marks) := by
  unfold State.fail
  split
  · exact h.release hx
  · exact h.release hx
  all_goals
    split_ifs
    · exact Permitted.release (s := s.failRun _) h hx
    · exact h.release hx

theorem Permitted.scheduleNext (h : Permitted s) : Permitted s.scheduleNext := by
  unfold State.scheduleNext
  split_ifs
  · exact h
  · split
    · exact h
    · dsimp only
      split
      · exact h
      · split
        · exact h
        · exact Permitted.startScan h

theorem Permitted.step (h : Permitted s) : Permitted (step s e) := by
  cases e with
  | tick elapsed => exact h
  | wakeUp =>
    change Permitted s.wakeUp
    unfold State.wakeUp
    split_ifs
    · exact h
    · exact h
  | scheduleNext => exact h.scheduleNext
  | scanProfile profileId =>
    change Permitted (s.scanProfile profileId)
    unfold State.scanProfile
    split
    · exact h
    · exact h.startScan
  | adHocScan => exact h.startScan
  | advance ticket =>
    dsimp only [Discovery.step]
    cases hscan : s.scan? ticket with
    | none => exact h
    | some x => exact h.advance (State.mem_of_scan? hscan)
  | fail ticket marks =>
    dsimp only [Discovery.step]
    cases hscan : s.scan? ticket with
    | none => exact h
    | some x => exact h.fail (State.mem_of_scan? hscan)

def Stage.left : Stage → ℕ
  | .preparing => 6
  | .recorded _ => 5
  | .launched _ => 4
  | .probing _ _ => 3
  | .completed _ _ => 2
  | .settled _ => 1

theorem mem_released_advance (h : ticket ∈ s.history.released) :
    ticket ∈ (s.advance x).history.released := by
  unfold State.advance
  split
  · exact h
  · exact h
  · split
    · exact List.mem_cons_of_mem _ h
    · exact h
  · exact h
  · unfold State.settle
    split
    · exact h
    · exact h
  · exact List.mem_cons_of_mem _ h

theorem advance_left (hscan : s.scan? ticket = some x) :
    ticket ∈ (s.advance x).history.released ∨
      ∃ y, (s.advance x).scan? ticket = some y ∧ y.stage.left + 1 = x.stage.left := by
  obtain rfl := State.ticket_of_scan? hscan
  have hset : ∀ stage, (s.setStage x.ticket stage).scan? x.ticket = some { x with stage } := by
    intro stage
    rw [State.scan?_setStage, hscan]
    rfl
  unfold State.advance
  cases hstage : x.stage with
  | preparing => exact .inr ⟨_, hset _, rfl⟩
  | recorded runId => exact .inr ⟨_, hset _, rfl⟩
  | launched runId =>
    dsimp only
    split
    · exact .inl List.mem_cons_self
    · exact .inr ⟨_, hset _, rfl⟩
  | probing runId now => exact .inr ⟨_, hset _, rfl⟩
  | completed runId now =>
    refine .inr ⟨{ x with stage := .settled runId }, ?_, rfl⟩
    dsimp only
    unfold State.settle
    split
    · exact hset _
    · exact hset _
  | settled runId => exact .inl List.mem_cons_self

theorem mem_released_run (h : ticket ∈ s.history.released) :
    ticket ∈ (run Discovery.step s (List.replicate n (.advance ticket))).history.released := by
  induction n generalizing s with
  | zero => exact h
  | succ n ih =>
    apply ih
    dsimp only [Discovery.step]
    split
    · exact h
    · exact mem_released_advance h

theorem mem_released_of_left (hscan : s.scan? ticket = some x) (hleft : x.stage.left ≤ n) :
    ticket ∈ (run Discovery.step s (List.replicate n (.advance ticket))).history.released := by
  induction n generalizing s x with
  | zero => cases hstage : x.stage <;> simp [hstage, Stage.left] at hleft
  | succ n ih =>
    rw [List.replicate_succ, run_cons]
    have hstep : Discovery.step s (.advance ticket) = s.advance x := by
      dsimp only [Discovery.step]
      rw [hscan]
    rw [hstep]
    rcases advance_left hscan with hreleased | ⟨y, hy, hless⟩
    · exact mem_released_run hreleased
    · apply ih hy
      omega

theorem Permitted.returned (h : Permitted s) (hx : x ∈ s.scans) :
    x.ticket ∈
      (run Discovery.step s (List.replicate 6 (.advance x.ticket))).history.released := by
  apply mem_released_of_left (h.scan?_ticket hx)
  cases x.stage <;> simp [Stage.left]

end Permits

def State.handled (s : State) : List ℕ :=
  s.due ++ s.scans.filterMap Scan.preparedFor

def Stage.began : Stage → Option Time
  | .probing _ now => some now
  | .completed _ now => some now
  | _ => none

/-- No run is recorded between the two states, and no interval changes. -/
structure Unrecorded (s s' : State) : Prop where
  starts : ∀ p, s'.scheduledStarts p = s.scheduledStarts p
  intervals : ∀ profile' ∈ s'.profiles,
    ∃ profile ∈ s.profiles, profile.id = profile'.id ∧ profile.interval = profile'.interval
  inProgress : ∀ y ∈ s'.scans, y.inProgress →
    ∃ x ∈ s.scans, x.inProgress ∧ x.ticket = y.ticket ∧ x.profileId = y.profileId

/-- Scans have gone on or have ended between the two states, and no profile was written. -/
structure Follows (s s' : State) : Prop extends Unrecorded s s' where
  clock : s'.clock = s.clock
  profiles : s'.profiles = s.profiles
  unsettled : s'.history.unsettled = s.history.unsettled
  fresh : s'.history.fresh = s.history.fresh
  nodup : s.handled.Nodup → s'.handled.Nodup
  handled : s'.handled ⊆ s.handled
  began : ∀ y ∈ s'.scans, ∀ now, y.stage.began = some now →
    now = s.clock ∨ ∃ x ∈ s.scans, x.profileId = y.profileId ∧ x.stage.began = some now

structure KeptProfile (s : State) (profile : ScanProfile) : Prop where
  enabled : profile.id ∈ s.handled ∨ s.scheduledStarts profile.id ≠ [] →
    profile.scheduleEnabled = true
  fresh : profile.id ∈ s.handled → profile.id ∈ s.history.fresh →
    ∀ t ∈ s.scheduledStarts profile.id, t + profile.interval ≤ s.clock
  settled : profile.id ∉ s.history.unsettled → ∀ t ∈ s.scheduledStarts profile.id,
    ∃ next, profile.nextScanAt = some next ∧ t + profile.interval ≤ next

/-- The scheduler handles a profile once, and a scan that is in progress began after the scheduled
scans of its profile had started. -/
structure Kept (s : State) : Prop where
  permitted : Permitted s
  past : ∀ p, ∀ t ∈ s.scheduledStarts p, t ≤ s.clock
  nodup : s.handled.Nodup
  began : ∀ x ∈ s.scans, ∀ p, x.profileId = some p → ∀ now, x.stage.began = some now →
    ∀ t ∈ s.scheduledStarts p, t ≤ now
  profiles : ∀ profile ∈ s.profiles, KeptProfile s profile

section Follows

variable {s s' s'' : State} {x : Scan} {stage : Stage}

theorem Unrecorded.orderly (h : Unrecorded s s') (hs : Orderly s) (hs' : Permitted s') :
    Orderly s' where
  exclusive x' hx' y' hy' hxp hyp p hpx hpy := by
    obtain ⟨x, hx, hx₁, hx₂, hx₃⟩ := h.inProgress x' hx' hxp
    obtain ⟨y, hy, hy₁, hy₂, hy₃⟩ := h.inProgress y' hy' hyp
    have heq := hs.exclusive x hx y hy hx₁ hy₁ p (hx₃.trans hpx) (hy₃.trans hpy)
    apply hs'.eq_of_ticket hx' hy'
    rw [← hx₂, ← hy₂, heq]
  apart profile' hprofile' := by
    obtain ⟨profile, hprofile, hid, hinterval⟩ := h.intervals profile' hprofile'
    rw [h.starts, ← hid, ← hinterval]
    exact hs.apart profile hprofile
  limited := by simpa using hs'.length_le
  released := hs'.tickets
  returned _ hx := hs'.returned hx

theorem Unrecorded.of_scans (hscans : s'.scans = s.scans) (hprofiles : s'.profiles = s.profiles)
    (hruns : s'.runs = s.runs) : Unrecorded s s' where
  starts p := by
    unfold State.scheduledStarts
    rw [hruns]
  intervals profile hprofile := ⟨profile, hprofiles ▸ hprofile, rfl, rfl⟩
  inProgress y hy hyp := ⟨y, hscans ▸ hy, hyp, rfl, rfl⟩

theorem Follows.refl (s : State) : Follows s s where
  toUnrecorded := .of_scans rfl rfl rfl
  clock := rfl
  profiles := rfl
  unsettled := rfl
  fresh := rfl
  nodup h := h
  handled _ h := h
  began y hy _ hnow := .inr ⟨y, hy, rfl, hnow⟩

theorem Follows.trans (h : Follows s s') (h' : Follows s' s'') : Follows s s'' where
  starts p := (h'.starts p).trans (h.starts p)
  intervals profile'' hprofile'' := by
    rw [h'.profiles, h.profiles] at hprofile''
    exact ⟨profile'', hprofile'', rfl, rfl⟩
  inProgress z hz hzp := by
    obtain ⟨y, hy, hyp, hticket, hprofile⟩ := h'.inProgress z hz hzp
    obtain ⟨x, hx, hxp, hticket', hprofile'⟩ := h.inProgress y hy hyp
    exact ⟨x, hx, hxp, hticket'.trans hticket, hprofile'.trans hprofile⟩
  clock := h'.clock.trans h.clock
  profiles := h'.profiles.trans h.profiles
  unsettled := h'.unsettled.trans h.unsettled
  fresh := h'.fresh.trans h.fresh
  nodup hs := h'.nodup (h.nodup hs)
  handled _ hp := h.handled (h'.handled hp)
  began z hz now hnow := by
    rcases h'.began z hz now hnow with hclock | ⟨y, hy, hprofile, hbegan⟩
    · exact .inl (hclock.trans h.clock)
    · rcases h.began y hy now hbegan with hclock | ⟨x, hx, hprofile', hbegan'⟩
      · exact .inl hclock
      · exact .inr ⟨x, hx, hprofile'.trans hprofile, hbegan'⟩

theorem Kept.follows (hs : Kept s) (h : Follows s s') (hs' : Permitted s') : Kept s' where
  permitted := hs'
  past p t ht := by
    rw [h.clock]
    exact hs.past p t (h.starts p ▸ ht)
  nodup := h.nodup hs.nodup
  began y hy p hp now hnow t ht := by
    rw [h.starts] at ht
    rcases h.began y hy now hnow with rfl | ⟨x, hx, hprofile, hbegan⟩
    · exact hs.past p t ht
    · exact hs.began x hx p (hprofile.trans hp) now hbegan t ht
  profiles profile hprofile := by
    rw [h.profiles] at hprofile
    have hkept := hs.profiles profile hprofile
    constructor
    · rw [h.starts]
      exact fun hcases => hkept.enabled (hcases.imp_left fun hp => h.handled hp)
    · rw [h.starts, h.fresh, h.clock]
      exact fun hp => hkept.fresh (h.handled hp)
    · rw [h.starts, h.unsettled]
      exact hkept.settled

theorem preparedFor_of_ne (h : stage ≠ .preparing) : Scan.preparedFor { x with stage } = none := by
  unfold Scan.preparedFor
  split
  · exact absurd ‹_› h
  · rfl

theorem handled_setStage (ticket : ℕ) (h : stage ≠ .preparing) :
    (s.setStage ticket stage).handled.Sublist s.handled := by
  apply List.Sublist.append_left
  change ((s.scans.map _).filterMap Scan.preparedFor).Sublist _
  rw [List.filterMap_map]
  induction s.scans with
  | nil => exact List.Sublist.refl _
  | cons x scans ih =>
    rw [List.filterMap_cons, List.filterMap_cons, Function.comp_apply]
    by_cases hticket : x.ticket = ticket
    · rw [if_pos hticket, preparedFor_of_ne h]
      dsimp only
      split
      · exact ih
      · exact ih.cons _
    · rw [if_neg hticket]
      split
      · exact ih
      · exact ih.cons_cons _

theorem Scan.inProgress_iff : x.inProgress = true ↔ x.stage ≠ .preparing := by
  unfold Scan.inProgress
  cases x.stage <;> simp

theorem Follows.setStage (stage : Stage) (hs : Permitted s) (hx : x ∈ s.scans)
    (hxp : x.inProgress) (hstage : stage ≠ .preparing)
    (hbegan : ∀ now, stage.began = some now → now = s.clock ∨ x.stage.began = some now) :
    Follows s (s.setStage x.ticket stage) where
  starts _ := rfl
  intervals profile hprofile := ⟨profile, hprofile, rfl, rfl⟩
  inProgress y hy hyp := by
    rcases State.exists_of_mem_setStage hy with ⟨hy, -⟩ | ⟨z, hz, hticket, rfl⟩
    · exact ⟨y, hy, hyp, rfl, rfl⟩
    · rw [hs.eq_of_ticket hz hx hticket]
      exact ⟨x, hx, hxp, rfl, rfl⟩
  clock := rfl
  profiles := rfl
  unsettled := rfl
  fresh := rfl
  nodup h := h.sublist (handled_setStage x.ticket hstage)
  handled := (handled_setStage x.ticket hstage).subset
  began y hy now hnow := by
    rcases State.exists_of_mem_setStage hy with ⟨hy, -⟩ | ⟨z, hz, hticket, rfl⟩
    · exact .inr ⟨y, hy, rfl, hnow⟩
    · rw [hs.eq_of_ticket hz hx hticket]
      exact (hbegan now hnow).imp_right fun h => ⟨x, hx, rfl, h⟩

theorem Follows.updateRun {runId : ℕ} {f : ScanRun → ScanRun}
    (hf : ∀ r, (f r).startedAt = r.startedAt ∧ (f r).scanProfileId = r.scanProfileId ∧
      (f r).triggeredBy = r.triggeredBy) :
    Follows s { s with runs := s.runs.update runId f } where
  starts p := by
    apply Table.map_select_update
    · intro r
      obtain ⟨-, hprofile, htriggered⟩ := hf r
      exact congrArg₂ (fun a b => decide (a = ScanTrigger.scheduled ∧ b = some p)) htriggered hprofile
    · exact fun r => (hf r).1
  intervals profile hprofile := ⟨profile, hprofile, rfl, rfl⟩
  inProgress y hy hyp := ⟨y, hy, hyp, rfl, rfl⟩
  clock := rfl
  profiles := rfl
  unsettled := rfl
  fresh := rfl
  nodup h := h
  handled _ h := h
  began y hy _ hnow := .inr ⟨y, hy, rfl, hnow⟩

theorem Follows.release (s : State) (ticket : ℕ) : Follows s (s.release ticket) where
  starts _ := rfl
  intervals profile hprofile := ⟨profile, hprofile, rfl, rfl⟩
  inProgress y hy hyp := ⟨y, (State.mem_release.mp hy).1, hyp, rfl, rfl⟩
  clock := rfl
  profiles := rfl
  unsettled := rfl
  fresh := rfl
  nodup h := h.sublist ((List.filter_sublist.filterMap _).append_left _)
  handled := ((List.filter_sublist.filterMap _).append_left _).subset
  began y hy _ hnow := .inr ⟨y, (State.mem_release.mp hy).1, rfl, hnow⟩

/-- A scan asks for a permit, for a profile that the loop of the scheduler has come to or for an
administrator. -/
theorem Follows.startScan {profileId prepared : Option ℕ} {triggeredBy : ScanTrigger}
    {due : List ℕ} (hdue : (due ++ prepared.toList).Perm s.due)
    (hprepared : Scan.preparedFor ⟨s.history.acquired, profileId, triggeredBy, .preparing⟩ =
      prepared) : Follows s (State.startScan { s with due } profileId triggeredBy) := by
  have hmore (ps : List ℕ) : (due ++ (ps ++ prepared.toList)).Perm (s.due ++ ps) := by
    have hswap : (due ++ (ps ++ prepared.toList)).Perm (due ++ (prepared.toList ++ ps)) :=
      List.perm_append_comm.append_left due
    rw [← List.append_assoc due prepared.toList] at hswap
    exact hswap.trans (hdue.append_right ps)
  unfold State.startScan
  split_ifs with hpermits
  · have hless : (due ++ s.scans.filterMap Scan.preparedFor).Sublist
        (due ++ (s.scans.filterMap Scan.preparedFor ++ prepared.toList)) :=
      (List.sublist_append_left _ _).append_left due
    exact {
      toUnrecorded := .of_scans rfl rfl rfl
      clock := rfl
      profiles := rfl
      unsettled := rfl
      fresh := rfl
      nodup := fun h => ((hmore _).nodup_iff.mpr h).sublist hless
      handled := fun p hp => (hmore _).subset (hless.subset hp)
      began := fun y hy now hnow => .inr ⟨y, hy, rfl, hnow⟩ }
  · have hhandled : s.handled.Perm (State.handled { s with
        due
        permits := s.permits - 1
        scans := s.scans ++ [⟨s.history.acquired, profileId, triggeredBy, .preparing⟩]
        history := { s.history with acquired := s.history.acquired + 1 } }) := by
      have hlast : [Scan.mk s.history.acquired profileId triggeredBy .preparing].filterMap
          Scan.preparedFor = prepared.toList := by
        rw [List.filterMap_cons, hprepared]
        cases prepared <;> rfl
      unfold State.handled
      rw [List.filterMap_append, hlast]
      exact (hmore _).symm
    exact {
      starts := fun _ => rfl
      intervals := fun profile hprofile => ⟨profile, hprofile, rfl, rfl⟩
      inProgress := by
        intro y hy hyp
        rcases List.mem_append.mp hy with hy | hy
        · exact ⟨y, hy, hyp, rfl, rfl⟩
        · rw [List.mem_singleton.mp hy] at hyp
          cases hyp
      clock := rfl
      profiles := rfl
      unsettled := rfl
      fresh := rfl
      nodup := hhandled.nodup_iff.mp
      handled := hhandled.symm.subset
      began := by
        intro y hy now hnow
        rcases List.mem_append.mp hy with hy | hy
        · exact .inr ⟨y, hy, rfl, hnow⟩
        · rw [List.mem_singleton.mp hy] at hnow
          cases hnow }

theorem Follows.scheduleNext (s : State) : Follows s s.scheduleNext := by
  have hskip {p : ℕ} {due : List ℕ} (hdue : s.due = p :: due) : Follows s { s with due } := by
    have hless : (due ++ s.scans.filterMap Scan.preparedFor).Sublist s.handled := by
      unfold State.handled
      rw [hdue]
      exact (List.sublist_cons_self p due).append_right _
    exact {
      toUnrecorded := .of_scans rfl rfl rfl
      clock := rfl
      profiles := rfl
      unsettled := rfl
      fresh := rfl
      nodup := fun h => h.sublist hless
      handled := hless.subset
      began := fun y hy now hnow => .inr ⟨y, hy, rfl, hnow⟩ }
  unfold State.scheduleNext
  split_ifs
  · exact .refl s
  · split
    · exact .refl s
    · dsimp only
      split
      · exact hskip ‹_›
      · split
        · exact hskip ‹_›
        · rename_i p due hdue _ _ _ _ _ _ _
          apply Follows.startScan _ rfl
          rw [hdue]
          exact List.perm_append_singleton p due

theorem Follows.manual (s : State) (profileId : Option ℕ) :
    Follows s (s.startScan profileId .manual) := by
  have hdue : (s.due ++ Option.toList none).Perm s.due :=
    List.Perm.of_eq (List.append_nil s.due)
  exact Follows.startScan hdue rfl

theorem Follows.fail (s : State) (x : Scan) (marks : Bool) : Follows s (s.fail x marks) := by
  have hmark (runId : ℕ) : Follows s (s.failRun runId) :=
    Follows.updateRun fun r => ⟨rfl, rfl, rfl⟩
  unfold State.fail
  split
  · exact .release _ _
  · exact .release _ _
  all_goals
    split_ifs
    · exact (hmark _).trans (.release _ _)
    · exact .release _ _

theorem Follows.advance (hs : Permitted s) (hx : x ∈ s.scans) (hrecorded : x.stage ≠ .preparing)
    (hcompleted : ∀ runId now, x.stage ≠ .completed runId now) : Follows s (s.advance x) := by
  have hxp := Scan.inProgress_iff.mpr hrecorded
  unfold State.advance
  cases hstage : x.stage with
  | preparing => exact absurd hstage hrecorded
  | recorded runId => exact .setStage _ hs hx hxp nofun nofun
  | launched runId =>
    dsimp only
    split
    · exact .release _ _
    · exact .setStage _ hs hx hxp nofun fun now hnow => .inl (Option.some.inj hnow).symm
  | probing runId began =>
    have hset : Follows s (s.setStage x.ticket (.completed runId began)) := by
      apply Follows.setStage (.completed runId began) hs hx hxp nofun
      intro now hnow
      rw [hstage]
      exact .inr hnow
    have hrun : Follows (s.setStage x.ticket (.completed runId began)) (s.complete x runId began) :=
      Follows.updateRun fun r => ⟨rfl, rfl, rfl⟩
    exact hset.trans hrun
  | completed runId now => exact absurd hstage (hcompleted runId now)
  | settled runId => exact .release _ _

end Follows

section Writes

variable {s : State} {x : Scan} {p : ℕ} {now : Time}

theorem Kept.tick (h : Kept s) (elapsed : ℕ) : Kept { s with clock := s.clock + elapsed } where
  permitted := h.permitted
  past p t ht := (h.past p t ht).trans (Int.le_add_of_nonneg_right (Int.natCast_nonneg elapsed))
  nodup := h.nodup
  began := h.began
  profiles profile hprofile := by
    have hkept := h.profiles profile hprofile
    constructor
    · exact hkept.enabled
    · intro hp hfresh t ht
      have hle := hkept.fresh hp hfresh t ht
      exact hle.trans (Int.le_add_of_nonneg_right (Int.natCast_nonneg elapsed))
    · exact hkept.settled

theorem State.mem_dueProfiles {profile : ScanProfile} (hprofile : profile ∈ s.profiles)
    (h : profile.id ∈ s.dueProfiles) : profile.isDue s.clock = true := by
  obtain ⟨profile', hselected, hid⟩ := List.mem_map.mp h
  obtain ⟨hprofile', hdue⟩ := Table.mem_select.mp hselected
  exact Table.eq_of_key_eq hprofile' hprofile hid ▸ hdue

theorem State.dueProfiles_nodup (s : State) : s.dueProfiles.Nodup :=
  (s.profiles.sorted.imp fun hlt => Nat.ne_of_lt hlt).sublist (List.filter_sublist.map Keyed.key)

theorem State.handled_of_idle (h : ¬s.schedulerBusy = true) :
    s.scans.filterMap Scan.preparedFor = [] := by
  rw [List.filterMap_eq_nil_iff]
  intro x hx
  have hidle : x.occupiesScheduler = false := by
    unfold State.schedulerBusy at h
    rw [Bool.or_eq_true, not_or, Bool.not_eq_true, Bool.not_eq_true, List.any_eq_false] at h
    simpa using h.2 x hx
  unfold Scan.occupiesScheduler at hidle
  unfold Scan.preparedFor
  split
  · rename_i htriggered hstage
    rw [htriggered, hstage] at hidle
    cases hidle
  · rfl

theorem Kept.wakeUp (h : Kept s) : Kept s.wakeUp := by
  unfold State.wakeUp
  split_ifs with hbusy
  · exact h
  · have hhandled : State.handled { s with
        due := s.dueProfiles
        history := { s.history with
          fresh := s.dueProfiles.filter fun p => p ∉ s.history.unsettled } } = s.dueProfiles := by
      unfold State.handled
      rw [State.handled_of_idle hbusy, List.append_nil]
    constructor
    · exact h.permitted
    · exact h.past
    · rw [hhandled]
      exact s.dueProfiles_nodup
    · exact h.began
    · intro profile hprofile
      have hkept := h.profiles profile hprofile
      constructor
      · rintro (hdue | hstarts)
        · rw [hhandled] at hdue
          exact (Bool.and_eq_true_iff.mp (State.mem_dueProfiles hprofile hdue)).1
        · exact hkept.enabled (.inr hstarts)
      · intro _ hfresh t ht
        obtain ⟨hdue, hsettled⟩ := List.mem_filter.mp hfresh
        obtain ⟨next, hnext, hle⟩ := hkept.settled (of_decide_eq_true hsettled) t ht
        have hover := (Bool.and_eq_true_iff.mp (State.mem_dueProfiles hprofile hdue)).2
        rw [hnext] at hover
        exact hle.trans (of_decide_eq_true hover)
      · exact hkept.settled

theorem Kept.writeProfile (h : Kept s) (hnow : ∀ t ∈ s.scheduledStarts p, t ≤ now) :
    Kept { s with
      profiles := s.profiles.update p fun profile => profile.scanned now
      history := { s.history with unsettled := s.history.unsettled.filter (· ≠ p) } } where
  permitted := h.permitted
  past := h.past
  nodup := h.nodup
  began := h.began
  profiles profile hprofile := by
    rcases Table.mem_update.mp hprofile with ⟨hprofile, hne⟩ | ⟨profile, hget, rfl⟩
    · have hkept := h.profiles profile hprofile
      refine ⟨hkept.enabled, hkept.fresh, fun hsettled => hkept.settled fun hmem => ?_⟩
      exact hsettled (List.mem_filter.mpr ⟨hmem, decide_eq_true hne⟩)
    · have hkept := h.profiles profile (Table.mem_of_get? hget)
      obtain rfl := Table.key_of_get? hget
      refine ⟨hkept.enabled, hkept.fresh, fun _ t ht => ⟨now + profile.interval, ?_, ?_⟩⟩
      · exact if_pos (hkept.enabled (.inr (List.ne_nil_of_mem ht)))
      · exact Int.add_le_add_right (hnow t ht) _

theorem Unrecorded.writeProfile (hs : Permitted s) {runId : ℕ} (hx : x ∈ s.scans)
    (hxp : x.inProgress) : Unrecorded s (s.settle x runId now) := by
  have hset : Unrecorded s (s.setStage x.ticket (.settled runId)) :=
    (Follows.setStage (.settled runId) hs hx hxp nofun nofun).toUnrecorded
  unfold State.settle
  split
  · exact hset
  · refine ⟨hset.starts, fun profile hprofile => ?_, hset.inProgress⟩
    rcases Table.mem_update.mp hprofile with ⟨hprofile, -⟩ | ⟨profile, hget, rfl⟩
    · exact ⟨profile, hprofile, rfl, rfl⟩
    · exact ⟨profile, Table.mem_of_get? hget, Table.key_of_get? hget, rfl⟩

theorem Kept.settle {runId : ℕ} (h : Kept s) (hx : x ∈ s.scans)
    (hstage : x.stage = .completed runId now) : Kept (s.settle x runId now) := by
  have hxp : x.inProgress := Scan.inProgress_iff.mpr (hstage ▸ nofun)
  have hset : Kept (s.setStage x.ticket (.settled runId)) :=
    h.follows (Follows.setStage _ h.permitted hx hxp nofun nofun) h.permitted.setStage
  unfold State.settle
  split
  · exact hset
  · rename_i p hp
    apply hset.writeProfile
    have hprofile : x.profileId = some p := (Option.filter_eq_some_iff.mp hp).1
    exact h.began x hx p hprofile now (hstage ▸ rfl)

end Writes

section Record

variable {s : State} {x : Scan} {p : ℕ}

theorem State.starts_record (s : State) (x : Scan) (p : ℕ) :
    (s.record x).scheduledStarts p = s.scheduledStarts p ++
      if x.triggeredBy = .scheduled ∧ x.profileId = some p then [s.clock] else [] := by
  change ((s.runs.insert _).select _).map ScanRun.startedAt = _
  rw [Table.select_insert, List.map_append]
  congr 1
  by_cases hstart : x.triggeredBy = .scheduled ∧ x.profileId = some p
  · rw [if_pos hstart, if_pos]
    · rfl
    · exact decide_eq_true hstart
  · rw [if_neg hstart, if_neg]
    · rfl
    · exact fun h => hstart (of_decide_eq_true h)

theorem State.handled_record (s : State) (x : Scan) : (s.record x).handled.Sublist s.handled :=
  @handled_setStage s (.recorded s.runs.nextKey) x.ticket nofun

theorem State.mem_starts_record {t : Time} (h : t ∈ (s.record x).scheduledStarts p) :
    t ∈ s.scheduledStarts p ∨
      t = s.clock ∧ x.triggeredBy = .scheduled ∧ x.profileId = some p := by
  rw [State.starts_record, List.mem_append] at h
  refine h.imp_right fun h => ?_
  split_ifs at h with hstart
  · exact ⟨List.mem_singleton.mp h, hstart⟩
  · cases h

theorem State.unsettled_record (s : State) (x : Scan) :
    s.history.unsettled ⊆ (s.record x).history.unsettled := by
  intro p hp
  unfold State.record
  dsimp only
  split
  · exact List.mem_append_right _ hp
  · exact hp

theorem State.mem_unsettled_record (htriggered : x.triggeredBy = .scheduled)
    (hp : x.profileId = some p) : p ∈ (s.record x).history.unsettled := by
  unfold State.record
  dsimp only
  rw [htriggered, hp]
  exact List.mem_cons_self

theorem preparedFor_of_scheduled (hstage : x.stage = .preparing)
    (htriggered : x.triggeredBy = .scheduled) : x.preparedFor = x.profileId := by
  unfold Scan.preparedFor
  rw [hstage, htriggered]

theorem mem_handled_of_scheduled (hx : x ∈ s.scans) (hstage : x.stage = .preparing)
    (htriggered : x.triggeredBy = .scheduled) (hp : x.profileId = some p) : p ∈ s.handled := by
  apply List.mem_append_right
  exact List.mem_filterMap.mpr ⟨x, hx, (preparedFor_of_scheduled hstage htriggered).trans hp⟩

theorem Kept.eq_of_preparedFor {y : Scan} (h : Kept s) (hx : x ∈ s.scans) (hy : y ∈ s.scans)
    (hxp : x.preparedFor = some p) (hyp : y.preparedFor = some p) : x = y := by
  by_contra hne
  have hnodup := List.pairwise_filterMap.mp h.nodup.of_append_right
  have hsymm : Std.Symm fun x y : Scan =>
      ∀ p, x.preparedFor = some p → ∀ q, y.preparedFor = some q → p ≠ q :=
    ⟨fun _ _ hxy p hp q hq hpq => hxy q hq p hp hpq.symm⟩
  exact hnodup.forall hx hy hne p hxp p hyp rfl

theorem Kept.notMem_handled_record (h : Kept s) (hx : x ∈ s.scans) (hstage : x.stage = .preparing)
    (htriggered : x.triggeredBy = .scheduled) (hp : x.profileId = some p) :
    p ∉ (s.record x).handled := by
  have hxp := (preparedFor_of_scheduled hstage htriggered).trans hp
  intro hmem
  rcases List.mem_append.mp hmem with hdue | hprepared
  · have hdisjoint := List.disjoint_of_nodup_append h.nodup
    exact hdisjoint hdue (List.mem_filterMap.mpr ⟨x, hx, hxp⟩)
  · obtain ⟨y, hy, hyp⟩ := List.mem_filterMap.mp hprepared
    rcases State.exists_of_mem_setStage hy with ⟨hy, hne⟩ | ⟨z, hz, hticket, rfl⟩
    · exact hne (congrArg Scan.ticket (h.eq_of_preparedFor hy hx hyp hxp))
    · cases (preparedFor_of_ne (by nofun)).symm.trans hyp

theorem Kept.record (h : Kept s) (hx : x ∈ s.scans) (hstage : x.stage = .preparing)
    (hadmissible : Admissible s x) : Kept (s.record x) where
  permitted := h.permitted.setStage
  past p t ht := by
    rcases State.mem_starts_record ht with ht | ⟨rfl, -⟩
    · exact h.past p t ht
    · exact Int.le_refl _
  nodup := h.nodup.sublist (s.handled_record x)
  began y hy p hp now hnow t ht := by
    rcases State.exists_of_mem_setStage hy with ⟨hy, -⟩ | ⟨z, hz, -, rfl⟩
    · rcases State.mem_starts_record ht with ht | ⟨-, -, hxp⟩
      · exact h.began y hy p hp now hnow t ht
      · have hyp : y.inProgress := by
          rw [Scan.inProgress_iff]
          intro hpreparing
          rw [hpreparing] at hnow
          cases hnow
        exact absurd hp ((hadmissible p hxp).1 y hy hyp)
    · cases hnow
  profiles profile hprofile := by
    have hkept := h.profiles profile hprofile
    have hless : profile.id ∈ (s.record x).handled → profile.id ∈ s.handled :=
      fun hmem => (s.handled_record x).subset hmem
    constructor
    · rintro (hmem | hstarts)
      · exact hkept.enabled (.inl (hless hmem))
      · obtain ⟨t, ht⟩ := List.exists_mem_of_ne_nil _ hstarts
        rcases State.mem_starts_record ht with ht | ⟨-, htriggered, hxp⟩
        · exact hkept.enabled (.inr (List.ne_nil_of_mem ht))
        · exact hkept.enabled (.inl (mem_handled_of_scheduled hx hstage htriggered hxp))
    · intro hmem hfresh t ht
      rcases State.mem_starts_record ht with ht | ⟨-, htriggered, hxp⟩
      · exact hkept.fresh (hless hmem) hfresh t ht
      · exact absurd hmem (h.notMem_handled_record hx hstage htriggered hxp)
    · intro hsettled t ht
      rcases State.mem_starts_record ht with ht | ⟨-, htriggered, hxp⟩
      · exact hkept.settled (fun hmem => hsettled (s.unsettled_record x hmem)) t ht
      · exact absurd (State.mem_unsettled_record htriggered hxp) hsettled

theorem State.mem_record (hx : x ∈ s.scans) :
    { x with stage := .recorded s.runs.nextKey } ∈ (s.record x).scans :=
  List.mem_map.mpr ⟨x, hx, if_pos rfl⟩

theorem State.mem_record_of_ne {y : Scan} (hy : y ∈ s.scans) (hne : y.ticket ≠ x.ticket) :
    y ∈ (s.record x).scans :=
  List.mem_map.mpr ⟨y, hy, if_neg hne⟩

theorem Kept.orderly_record_iff (h : Kept s) (hs : Orderly s) (hx : x ∈ s.scans)
    (hstage : x.stage = .preparing) : Orderly (s.record x) ↔ Admissible s x := by
  have hpermitted : Permitted (s.record x) := h.permitted.setStage
  constructor
  · intro horderly p hp
    constructor
    · intro y hy hyp hprofile
      have hne : y.ticket ≠ x.ticket := by
        intro hticket
        rw [h.permitted.eq_of_ticket hy hx hticket, Scan.inProgress_iff] at hyp
        exact hyp hstage
      have hsame := horderly.exclusive y (State.mem_record_of_ne hy hne) _ (State.mem_record hx)
        hyp rfl p hprofile hp
      exact absurd (congrArg Scan.ticket hsame) hne
    · intro htriggered
      refine .inr fun profile hprofile hid t ht => ?_
      subst hid
      have hapart := horderly.apart profile hprofile
      rw [State.starts_record, if_pos ⟨htriggered, hp⟩, List.pairwise_append] at hapart
      exact hapart.2.2 t ht s.clock (List.mem_singleton.mpr rfl)
  · intro hadmissible
    have hcases : ∀ y' ∈ (s.record x).scans, y'.inProgress → ∀ p, y'.profileId = some p →
        (∃ y ∈ s.scans, y.inProgress ∧ y.ticket = y'.ticket ∧ y.profileId = some p) ∨
          (x.profileId = some p ∧ y'.ticket = x.ticket) := by
      intro y' hy' hyp p hp
      rcases State.exists_of_mem_setStage hy' with ⟨hy, -⟩ | ⟨z, hz, hticket, rfl⟩
      · exact .inl ⟨y', hy, hyp, rfl, hp⟩
      · rw [h.permitted.eq_of_ticket hz hx hticket] at hp ⊢
        exact .inr ⟨hp, rfl⟩
    refine ⟨?_, ?_, ?_, hpermitted.tickets, fun _ hy => hpermitted.returned hy⟩
    · intro y' hy' z' hz' hyp hzp p hpy hpz
      apply hpermitted.eq_of_ticket hy' hz'
      rcases hcases y' hy' hyp p hpy with ⟨y, hy, hy₁, hy₂, hy₃⟩ | ⟨hxp, hyticket⟩
      · rcases hcases z' hz' hzp p hpz with ⟨z, hz, hz₁, hz₂, hz₃⟩ | ⟨hxp, -⟩
        · rw [← hy₂, ← hz₂, hs.exclusive y hy z hz hy₁ hz₁ p hy₃ hz₃]
        · exact absurd hy₃ ((hadmissible p hxp).1 y hy hy₁)
      · rcases hcases z' hz' hzp p hpz with ⟨z, hz, hz₁, -, hz₃⟩ | ⟨-, hzticket⟩
        · exact absurd hz₃ ((hadmissible p hxp).1 z hz hz₁)
        · rw [hyticket, hzticket]
    · intro profile hprofile
      rw [State.starts_record, List.pairwise_append]
      refine ⟨hs.apart profile hprofile, ?_, ?_⟩
      · split_ifs
        · exact List.pairwise_singleton _ _
        · exact List.Pairwise.nil
      · intro t ht t' ht'
        split_ifs at ht' with hstart
        · obtain ⟨htriggered, hp⟩ := hstart
          rw [List.mem_singleton.mp ht']
          rcases (hadmissible profile.id hp).2 htriggered with hfresh | hapart
          · have hhandled := mem_handled_of_scheduled hx hstage htriggered hp
            exact (h.profiles profile hprofile).fresh hhandled hfresh t ht
          · exact hapart profile hprofile rfl t ht
        · cases ht'
    · simpa using hpermitted.length_le

end Record

section Runs

variable {s : State} {e : Event}

theorem Kept.unrecorded (h : Kept s) (he : ∀ ticket x, e = .advance ticket →
    s.scan? ticket = some x → x.stage ≠ .preparing) :
    Unrecorded s (step s e) ∧ Kept (step s e) := by
  have hpermitted : Permitted (step s e) := h.permitted.step
  have hfollows (hstep : Follows s (step s e)) : Unrecorded s (step s e) ∧ Kept (step s e) :=
    ⟨hstep.toUnrecorded, h.follows hstep hpermitted⟩
  cases e with
  | tick elapsed => exact ⟨.of_scans rfl rfl rfl, h.tick elapsed⟩
  | wakeUp =>
    refine ⟨?_, h.wakeUp⟩
    change Unrecorded s s.wakeUp
    unfold State.wakeUp
    split_ifs
    · exact .of_scans rfl rfl rfl
    · exact .of_scans rfl rfl rfl
  | scheduleNext => exact hfollows (.scheduleNext s)
  | scanProfile profileId =>
    apply hfollows
    change Follows s (s.scanProfile profileId)
    unfold State.scanProfile
    split
    · exact .refl s
    · exact .manual s _
  | adHocScan => exact hfollows (.manual s none)
  | advance ticket =>
    cases hscan : s.scan? ticket with
    | none =>
      apply hfollows
      dsimp only [step]
      rw [hscan]
      exact .refl s
    | some x =>
      have hx := State.mem_of_scan? hscan
      have hrecorded := he ticket x rfl hscan
      have hstep : step s (.advance ticket) = s.advance x := by
        dsimp only [step]
        rw [hscan]
      by_cases hcompleted : ∃ runId now, x.stage = .completed runId now
      · obtain ⟨runId, now, hstage⟩ := hcompleted
        have hsettle : s.advance x = s.settle x runId now := by
          unfold State.advance
          rw [hstage]
        rw [hstep, hsettle]
        exact ⟨.writeProfile h.permitted hx (Scan.inProgress_iff.mpr hrecorded),
          h.settle hx hstage⟩
      · apply hfollows
        rw [hstep]
        exact .advance h.permitted hx hrecorded fun runId now hstage =>
          hcompleted ⟨runId, now, hstage⟩
  | fail ticket marks =>
    apply hfollows
    dsimp only [step]
    split
    · exact .refl s
    · exact .fail s _ marks

theorem Kept.initial (clock : Time) (profiles : Table ScanProfile) :
    Kept (State.initial clock profiles) where
  permitted := Conserved.initial
  past _ _ ht := absurd ht List.not_mem_nil
  nodup := List.nodup_nil
  began _ hx := absurd hx List.not_mem_nil
  profiles profile _ := by
    constructor
    · rintro (hmem | hstarts)
      · exact absurd hmem List.not_mem_nil
      · exact absurd rfl hstarts
    · exact fun hmem => absurd hmem List.not_mem_nil
    · exact fun _ t ht => absurd ht List.not_mem_nil

theorem Orderly.initial (clock : Time) (profiles : Table ScanProfile) :
    Orderly (State.initial clock profiles) where
  exclusive _ hx := absurd hx List.not_mem_nil
  apart _ _ := List.Pairwise.nil
  limited := Nat.zero_le _
  released := List.Perm.refl _
  returned _ hx := absurd hx List.not_mem_nil

theorem step_record {ticket : ℕ} {x : Scan} (hscan : s.scan? ticket = some x)
    (hstage : x.stage = .preparing) : step s (.advance ticket) = s.record x := by
  dsimp only [step]
  rw [hscan]
  dsimp only [State.advance]
  rw [hstage]

theorem records_or (s : State) (e : Event) :
    (∃ ticket x, e = .advance ticket ∧ s.scan? ticket = some x ∧ x.stage = .preparing) ∨
      ∀ ticket x, e = .advance ticket → s.scan? ticket = some x → x.stage ≠ .preparing := by
  rw [or_iff_not_imp_left]
  intro h ticket x he hscan hstage
  exact h ⟨ticket, x, he, hscan, hstage⟩

theorem proper_of_unrecorded (he : ∀ ticket x, e = .advance ticket →
    s.scan? ticket = some x → x.stage ≠ .preparing) : Proper s e := by
  cases e with
  | advance ticket => exact fun x hscan hstage => absurd hstage (he ticket x rfl hscan)
  | _ => trivial

theorem Kept.step (h : Kept s) (hproper : Proper s e) : Kept (step s e) := by
  rcases records_or s e with ⟨ticket, x, rfl, hscan, hstage⟩ | hrecords
  · rw [step_record hscan hstage]
    exact h.record (State.mem_of_scan? hscan) hstage (hproper x hscan hstage)
  · exact (h.unrecorded hrecords).2

theorem Kept.orderly_step_iff (h : Kept s) (hs : Orderly s) :
    Orderly (Discovery.step s e) ↔ Proper s e := by
  rcases records_or s e with ⟨ticket, x, rfl, hscan, hstage⟩ | hrecords
  · rw [step_record hscan hstage, h.orderly_record_iff hs (State.mem_of_scan? hscan) hstage]
    constructor
    · intro hadmissible y hy _
      rw [hscan] at hy
      exact Option.some.inj hy ▸ hadmissible
    · exact fun hproper => hproper x hscan hstage
  · have hstep := h.unrecorded hrecords
    exact iff_of_true (hstep.1.orderly hs hstep.2.permitted) (proper_of_unrecorded hrecords)

/-- In every run, the scans are in order in every state reached exactly if the runs are recorded of
admissible scans only. -/
theorem scans_orderly_iff (clock : Time) (profiles : Table ScanProfile) (es : List Event) :
    (∀ pre, pre <+: es → Orderly (run step (State.initial clock profiles) pre)) ↔
      Meets step Proper (State.initial clock profiles) es :=
  forall_prefix_iff_meets (I := Kept) (fun _ _ hkept horderly => hkept.orderly_step_iff horderly)
    (fun _ _ hkept _ hproper => hkept.step hproper) es (.initial clock profiles)
    (.initial clock profiles)

def daily : Table ScanProfile :=
  (∅ : Table ScanProfile).insert
    { name := "internal", targets := ["10.0.0.0/24"], scheduleEnabled := true, nextScanAt := some 0 }

/-- A scan that takes more than a minute is joined by another one, and a scan that fails is repeated
after a minute. -/
theorem daily_scan_repeated :
    ¬Orderly (run step (State.initial 0 daily)
      [.wakeUp, .scheduleNext, .advance 0, .advance 0, .advance 0, .tick 60, .wakeUp,
        .scheduleNext, .advance 1]) ∧
    ¬Orderly (run step (State.initial 0 daily)
      [.wakeUp, .scheduleNext, .advance 0, .advance 0, .advance 0, .fail 0 true, .tick 60, .wakeUp,
        .scheduleNext, .advance 1]) := by
  constructor
  · intro h
    have hsame := h.exclusive ⟨0, some 1, .scheduled, .probing 1 0⟩ (by decide)
      ⟨1, some 1, .scheduled, .recorded 2⟩ (by decide) rfl rfl 1 rfl rfl
    cases hsame
  · intro h
    have hapart := h.apart
      ⟨1, "internal", ["10.0.0.0/24"], true, 1440, none, some 0⟩ (by decide)
    revert hapart
    decide

end Runs

end Discovery

end CaManager
