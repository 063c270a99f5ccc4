import CaManager.Scheduler.Tasks

/-!
# Executions of tasks in any order of steps

The loop keeps its own starts of a task object apart, and goes on after a task that fails. What it
found due it runs all the same when the task is disabled or removed meanwhile; a call that runs a
task at once asks neither whether the task runs nor whether it is enabled; and a task that is
registered anew does not know when it ran. A start is proper where none of this shows.
-/

namespace CaManager

open Library

namespace Scheduler

/-- No two executions of a task overlap, none starts after the task was disabled or unregistered,
and the starts by the loop are apart. A task is known by its name. -/
structure Orderly (s : State) : Prop where
  exclusive : s.executingNames.Nodup
  obedient : ∀ x ∈ s.history.starts, x.stopped = false
  apart : s.loopStarts.Pairwise fun later earlier =>
    earlier.name = later.name → earlier.instant + seconds later.interval ≤ later.instant

def Admissible (s : State) (r : ℕ) : Prop :=
  (s.heap r).name ∉ s.executingNames ∧ (s.heap r).name ∉ s.history.stopped

/-- The loop has not started an earlier registration of the task within the interval. -/
def Renewed (s : State) (r : ℕ) : Prop :=
  ∀ x ∈ s.loopStarts, x.name = (s.heap r).name → x.task ≠ r →
    x.instant + seconds (s.heap r).interval ≤ s.clock

/-- Admissible tasks are started only, and by the loop only if the interval has passed since it
started an earlier registration. -/
def Proper (s : State) : Event → Prop
  | .loop => ∀ r due, s.phase = .executing (r :: due) → Admissible s r ∧ Renewed s r
  | .callStarts k => ∀ r, s.called[k]? = some r → Admissible s r
  | _ => True

structure Kept (s : State) : Prop where
  known : ∀ r ∈ s.refs, r < s.next
  distinct : (s.tasks.map Prod.snd).Nodup
  left : s.phase.left.Nodup
  begun : ∀ x ∈ s.history.starts, x.name = (s.heap x.task).name ∧
    x.interval = (s.heap x.task).interval ∧ x.instant ≤ s.clock
  /-- A task that the loop has started is being run by it, or has run since. -/
  ran : ∀ x ∈ s.loopStarts, s.phase.task ≠ some x.task →
    ∃ last, (s.heap x.task).lastRun = some last ∧ x.instant ≤ last
  due : ∀ r ∈ s.phase.due, ∀ x ∈ s.loopStarts, x.task = r →
    x.instant + seconds (s.heap r).interval ≤ s.clock

structure Follows (s s' : State) : Prop where
  clock : s.clock ≤ s'.clock
  next : s.next ≤ s'.next
  starts : s'.history.starts = s.history.starts
  executing : s'.executing.Sublist s.executing
  same : ∀ r < s.next, (s'.heap r).name = (s.heap r).name ∧
    (s'.heap r).interval = (s.heap r).interval
  lastRun : ∀ r < s.next, (s'.heap r).lastRun = (s.heap r).lastRun ∨
    (s'.heap r).lastRun = some s'.clock
  task : ∀ r, s.phase.task = some r → s'.phase.task = some r ∨
    (s'.heap r).lastRun = some s'.clock
  due : ∀ r ∈ s'.phase.due, r ∈ s.phase.due ∨
    s.phase.task = none ∧ (s.heap r).shouldRun s.clock = true
  refs : ∀ r ∈ s'.refs, r ∈ s.refs ∨ s.next ≤ r ∧ r < s'.next

section Steps

variable {s s' : State} {r : ℕ} {x : Start}

theorem State.mem_refs : r ∈ s.refs ↔
    r ∈ s.tasks.map Prod.snd ∨ s.phase.task = some r ∨ r ∈ s.phase.left ∨ r ∈ s.called ∨
      r ∈ s.manual.map Prod.fst ∨ r ∈ s.history.starts.map Start.task := by
  simp only [State.refs, List.mem_append, Option.mem_toList, or_assoc]

theorem State.mem_refs_of_mem_executing (h : r ∈ s.executing) : r ∈ s.refs := by
  rw [State.executing, List.mem_append, Option.mem_toList] at h
  rw [State.mem_refs]
  exact h.elim (fun h => .inr (.inl h)) fun h => .inr (.inr (.inr (.inr (.inl h))))

theorem State.mem_loopStarts : x ∈ s.loopStarts ↔ x ∈ s.history.starts ∧ x.trigger = .loop := by
  simp [State.loopStarts]

theorem Kept.task_lt (h : Kept s) (hx : x ∈ s.history.starts) : x.task < s.next :=
  h.known _ (State.mem_refs.mpr
    (.inr (.inr (.inr (.inr (.inr (List.mem_map_of_mem hx)))))))

theorem Kept.passed_of_shouldRun (h : Kept s) (htask : s.phase.task = none)
    (hdue : (s.heap x.task).shouldRun s.clock = true) (hx : x ∈ s.loopStarts) :
    x.instant + seconds (s.heap x.task).interval ≤ s.clock := by
  have hidle : s.phase.task ≠ some x.task := by
    rw [htask]
    exact (Option.some_ne_none x.task).symm
  obtain ⟨last, hlast, hle⟩ := h.ran x hx hidle
  unfold ScheduledTask.shouldRun at hdue
  rw [hlast] at hdue
  split_ifs at hdue with henabled
  have hpassed := of_decide_eq_true hdue
  omega

theorem Follows.loopStarts (f : Follows s s') : s'.loopStarts = s.loopStarts := by
  unfold State.loopStarts
  rw [f.starts]

theorem Follows.refl (s : State) : Follows s s where
  clock := le_rfl
  next := le_rfl
  starts := rfl
  executing := .refl _
  same _ _ := ⟨rfl, rfl⟩
  lastRun _ _ := .inl rfl
  task _ hr := .inl hr
  due _ hr := .inl hr
  refs _ hr := .inl hr

theorem Kept.follows (h : Kept s) (f : Follows s s') (hdistinct : (s'.tasks.map Prod.snd).Nodup)
    (hleft : s'.phase.left.Nodup) : Kept s' where
  known r hr := by
    rcases f.refs r hr with hold | hnew
    · exact (h.known r hold).trans_le f.next
    · exact hnew.2
  distinct := hdistinct
  left := hleft
  begun x hx := by
    rw [f.starts] at hx
    obtain ⟨hname, hinterval, hinstant⟩ := h.begun x hx
    obtain ⟨hname', hinterval'⟩ := f.same x.task (h.task_lt hx)
    rw [hname', hinterval']
    exact ⟨hname, hinterval, hinstant.trans f.clock⟩
  ran x hx htask := by
    rw [f.loopStarts] at hx
    have hx' := (State.mem_loopStarts.mp hx).1
    have hnow : x.instant ≤ s'.clock := (h.begun x hx').2.2.trans f.clock
    by_cases hrunning : s.phase.task = some x.task
    · rcases f.task x.task hrunning with hstill | hended
      · exact absurd hstill htask
      · exact ⟨s'.clock, hended, hnow⟩
    · obtain ⟨last, hlast, hle⟩ := h.ran x hx hrunning
      rcases f.lastRun x.task (h.task_lt hx') with hsame | hlater
      · exact ⟨last, hsame.trans hlast, hle⟩
      · exact ⟨s'.clock, hlater, hnow⟩
  due r hr x hx hxr := by
    rw [f.loopStarts] at hx
    subst hxr
    rw [(f.same x.task (h.task_lt (State.mem_loopStarts.mp hx).1)).2]
    refine le_trans ?_ f.clock
    rcases f.due x.task hr with hold | ⟨htask, hnew⟩
    · exact h.due x.task hold x hx rfl
    · exact h.passed_of_shouldRun htask hnew hx

theorem Orderly.follows (h : Orderly s) (hs : Kept s) (f : Follows s s') : Orderly s' where
  exclusive := by
    have hnames : s'.executingNames = s'.executing.map fun r => (s.heap r).name := by
      apply List.map_congr_left
      intro r hr
      have hold := hs.known r (State.mem_refs_of_mem_executing (f.executing.subset hr))
      exact (f.same r hold).1
    rw [hnames]
    exact h.exclusive.sublist (f.executing.map _)
  obedient := by
    rw [f.starts]
    exact h.obedient
  apart := by
    rw [f.loopStarts]
    exact h.apart

end Steps

section Calls

variable {s s' : State} {r k : ℕ} {name : String} {outcome : Except String Unit}

theorem Follows.call (hclock : s'.clock = s.clock) (hnext : s.next ≤ s'.next)
    (hstarts : s'.history.starts = s.history.starts) (hphase : s'.phase = s.phase)
    (hmanual : s'.manual = s.manual)
    (hheap : ∀ r < s.next, (s'.heap r).name = (s.heap r).name ∧
      (s'.heap r).interval = (s.heap r).interval ∧ (s'.heap r).lastRun = (s.heap r).lastRun)
    (hrefs : ∀ r ∈ s'.tasks.map Prod.snd ++ s'.called, r ∈ s.refs ∨ s.next ≤ r ∧ r < s'.next) :
    Follows s s' where
  clock := hclock.ge
  next := hnext
  starts := hstarts
  executing := by
    unfold State.executing
    rw [hphase, hmanual]
  same r hr := ⟨(hheap r hr).1, (hheap r hr).2.1⟩
  lastRun r hr := .inl (hheap r hr).2.2
  task r hr := .inl (hphase ▸ hr)
  due r hr := .inl (hphase ▸ hr)
  refs r hr := by
    rw [State.mem_refs, hphase, hmanual, hstarts] at hr
    have hold : ∀ hmem : s.phase.task = some r ∨ r ∈ s.phase.left ∨ r ∈ s'.called ∨
        r ∈ s.manual.map Prod.fst ∨ r ∈ s.history.starts.map Start.task,
        r ∈ s.refs ∨ s.next ≤ r ∧ r < s'.next := by
      rintro (h | h | h | h)
      · exact .inl (State.mem_refs.mpr (.inr (.inl h)))
      · exact .inl (State.mem_refs.mpr (.inr (.inr (.inl h))))
      · exact hrefs r (List.mem_append_right _ h)
      · exact .inl (State.mem_refs.mpr (.inr (.inr (.inr (.inr h)))))
    rcases hr with h | h
    · exact hrefs r (List.mem_append_left _ h)
    · exact hold h

theorem State.mem_refs_of_mem_called (h : r ∈ s.called) : r ∈ s.refs :=
  State.mem_refs.mpr (.inr (.inr (.inr (.inl h))))

theorem State.mem_tasks_of_lookup (h : s.tasks.lookup name = some r) :
    r ∈ s.tasks.map Prod.snd :=
  List.mem_map_of_mem (mem_of_lookup h)

theorem State.mem_refs_of_lookup (h : s.tasks.lookup name = some r) : r ∈ s.refs :=
  State.mem_refs.mpr (.inl (State.mem_tasks_of_lookup h))

theorem Kept.registerTask (h : Kept s) (interval : ℤ) (enabled : Bool) :
    Follows s (s.registerTask name interval enabled) ∧
      Kept (s.registerTask name interval enabled) := by
  have hfollows : Follows s (s.registerTask name interval enabled) := by
    refine .call rfl (Nat.le_succ s.next) rfl rfl rfl ?_ ?_
    · intro r hr
      have hne : r ≠ s.next := hr.ne
      simp [State.registerTask, hne]
    · intro r hr
      rcases List.mem_append.mp hr with htask | hcalled
      · rcases mem_values_setEntry htask with rfl | hold
        · exact .inr ⟨le_rfl, Nat.lt_succ_self _⟩
        · exact .inl (State.mem_refs.mpr (.inl hold))
      · exact .inl (State.mem_refs_of_mem_called hcalled)
  have hfresh : s.next ∉ s.tasks.map Prod.snd := fun hmem =>
    (h.known s.next (State.mem_refs.mpr (.inl hmem))).false
  exact ⟨hfollows, h.follows hfollows (nodup_values_setEntry h.distinct hfresh) h.left⟩

theorem Kept.unregisterTask (h : Kept s) (name : String) :
    Follows s (s.unregisterTask name).2 ∧ Kept (s.unregisterTask name).2 := by
  unfold State.unregisterTask
  cases s.tasks.lookup name with
  | none => exact ⟨.refl s, h⟩
  | some r =>
    have hsub := (List.filter_sublist (p := fun entry => entry.1 ≠ name) (l := s.tasks)).map Prod.snd
    have hfollows : Follows s { s with
        tasks := s.tasks.filter fun entry => entry.1 ≠ name
        history := { s.history with stopped := name :: s.history.stopped } } := by
      refine .call rfl le_rfl rfl rfl rfl (fun r _ => ⟨rfl, rfl, rfl⟩) fun r hr => .inl ?_
      rcases List.mem_append.mp hr with htask | hcalled
      · exact State.mem_refs.mpr (.inl (hsub.subset htask))
      · exact State.mem_refs_of_mem_called hcalled
    exact ⟨hfollows, h.follows hfollows (h.distinct.sublist hsub) h.left⟩

theorem Kept.setEnabled (h : Kept s) (r : ℕ) (enabled : Bool) (stopped : List String) :
    Follows s { s.setEnabled r enabled with history := { s.history with stopped } } ∧
      Kept { s.setEnabled r enabled with history := { s.history with stopped } } := by
  have hfollows : Follows s
      { s.setEnabled r enabled with history := { s.history with stopped } } := by
    refine .call rfl le_rfl rfl rfl rfl ?_ fun r' hr => .inl ?_
    · intro r' _
      by_cases hr : r' = r
      · simp [State.setEnabled, hr]
      · simp [State.setEnabled, hr]
    · rcases List.mem_append.mp hr with htask | hcalled
      · exact State.mem_refs.mpr (.inl htask)
      · exact State.mem_refs_of_mem_called hcalled
  exact ⟨hfollows, h.follows hfollows h.distinct h.left⟩

theorem Kept.runTaskNow (h : Kept s) (name : String) :
    Follows s (s.runTaskNow name) ∧ Kept (s.runTaskNow name) := by
  unfold State.runTaskNow
  cases hlookup : s.tasks.lookup name with
  | none => exact ⟨.refl s, h⟩
  | some r =>
    have hfollows : Follows s { s with called := s.called ++ [r] } := by
      refine .call rfl le_rfl rfl rfl rfl (fun r _ => ⟨rfl, rfl, rfl⟩) fun r' hr => .inl ?_
      rcases List.mem_append.mp hr with htask | hcalled
      · exact State.mem_refs.mpr (.inl htask)
      · rcases List.mem_append.mp hcalled with hold | hnew
        · exact State.mem_refs_of_mem_called hold
        · rw [List.mem_singleton.mp hnew]
          exact State.mem_refs_of_lookup hlookup
    exact ⟨hfollows, h.follows hfollows h.distinct h.left⟩

end Calls

section Executions

variable {s s' : State} {r k : ℕ} {due : List ℕ} {startedAt : ℤ} {outcome : Except String Unit}

theorem Kept.setPhase (h : Kept s) {p : Phase} (hold : s.phase.task = none)
    (hnew : p.task = none)
    (hdue : ∀ r ∈ p.due, r ∈ s.phase.due ∨ (s.heap r).shouldRun s.clock = true)
    (hleft : ∀ r ∈ p.left, r ∈ s.refs) (hnodup : p.left.Nodup) :
    Follows s { s with phase := p } ∧ Kept { s with phase := p } := by
  have hfollows : Follows s { s with phase := p } := by
    refine ⟨le_rfl, le_rfl, rfl, ?_, fun _ _ => ⟨rfl, rfl⟩, fun _ _ => .inl rfl, ?_, ?_, ?_⟩
    · unfold State.executing
      rw [hold, hnew]
    · intro r hr
      rw [hold] at hr
      cases hr
    · exact fun r hr => (hdue r hr).imp_right fun hrun => ⟨hold, hrun⟩
    · intro r hr
      left
      rw [State.mem_refs] at hr
      rcases hr with hr | hr | hr | hr
      · exact State.mem_refs.mpr (.inl hr)
      · rw [hnew] at hr
        cases hr
      · exact hleft r hr
      · exact State.mem_refs.mpr (.inr (.inr (.inr hr)))
  exact ⟨hfollows, h.follows hfollows h.distinct hnodup⟩

theorem Kept.loop (h : Kept s) (hphase : ∀ r due, s.phase ≠ .executing (r :: due)) :
    Follows s s.loop ∧ Kept s.loop := by
  have hleft : ∀ r ∈ s.phase.left, r ∈ s.refs := fun r hr =>
    State.mem_refs.mpr (.inr (.inr (.inl hr)))
  unfold State.loop
  cases hp : s.phase with
  | asleep wakesAt =>
    dsimp only
    split_ifs
    · refine h.setPhase (by rw [hp]; rfl) rfl (fun r hr => by cases hr) ?_ h.distinct
      exact fun r hr => State.mem_refs.mpr (.inl hr)
    · exact ⟨.refl s, h⟩
  | collecting rest due =>
    have hmem := h.left
    rw [hp] at hmem hleft
    cases rest with
    | nil =>
      refine h.setPhase (by rw [hp]; rfl) rfl (fun r hr => .inl (by rw [hp]; exact hr)) ?_ ?_
      · exact fun r hr => hleft r (List.mem_append_left _ hr)
      · exact (List.append_nil due) ▸ hmem
    | cons r rest =>
      dsimp only
      split_ifs with hrun
      · refine h.setPhase (by rw [hp]; rfl) rfl ?_ ?_ ?_
        · intro r' hr
          rcases List.mem_append.mp hr with hold | hnew
          · exact .inl (by rw [hp]; exact hold)
          · exact .inr (List.mem_singleton.mp hnew ▸ hrun)
        · exact fun r' hr => hleft r' (by simpa [Phase.left] using hr)
        · change (due ++ [r] ++ rest).Nodup
          rw [List.append_assoc]
          exact hmem
      · refine h.setPhase (by rw [hp]; rfl) rfl (fun r' hr => .inl (by rw [hp]; exact hr)) ?_ ?_
        · intro r' hr
          refine hleft r' ?_
          rcases List.mem_append.mp hr with hd | hr
          · exact List.mem_append_left _ hd
          · exact List.mem_append_right _ (List.mem_cons_of_mem r hr)
        · exact hmem.sublist ((List.sublist_cons_self r rest).append_left due)
  | executing due =>
    cases due with
    | nil =>
      refine h.setPhase (by rw [hp]; rfl) rfl ?_ ?_ List.nodup_nil
      · exact fun r hr => absurd hr List.not_mem_nil
      · exact fun r hr => absurd hr List.not_mem_nil
    | cons r due => exact absurd hp (hphase r due)
  | running r startedAt due => exact ⟨.refl s, h⟩

theorem State.lastRun_finish {r' : ℕ} :
    ((s.finish r startedAt outcome).heap r').lastRun = (s.heap r').lastRun ∨
      ((s.finish r startedAt outcome).heap r').lastRun = some s.clock := by
  by_cases hr : r' = r
  · subst hr
    exact .inr (by simp [State.finish])
  · exact .inl (by simp [State.finish, hr])

theorem Kept.finish (h : Kept s) {p : Phase} {m : List (ℕ × ℤ)}
    (hexecuting : (p.task.toList ++ m.map Prod.fst).Sublist s.executing)
    (htask : ∀ r', s.phase.task = some r' → p.task = some r' ∨ r' = r)
    (hleft : p.left = s.phase.left) (hdue : p.due = s.phase.due) :
    Follows s { s.finish r startedAt outcome with phase := p, manual := m } ∧
      Kept { s.finish r startedAt outcome with phase := p, manual := m } := by
  have hfollows : Follows s { s.finish r startedAt outcome with phase := p, manual := m } := by
    refine ⟨le_rfl, le_rfl, rfl, hexecuting, ?_, fun _ _ => State.lastRun_finish, ?_, ?_, ?_⟩
    · intro r' _
      by_cases hr : r' = r
      · subst hr
        simp [State.finish]
      · simp [State.finish, hr]
    · intro r' hr
      refine (htask r' hr).imp_right fun heq => ?_
      subst heq
      simp [State.finish]
    · exact fun r' hr => .inl (hdue ▸ hr)
    · intro r' hr
      left
      have hex : r' ∈ p.task.toList ++ m.map Prod.fst → r' ∈ s.refs := fun hmem =>
        State.mem_refs_of_mem_executing (hexecuting.subset hmem)
      rw [State.mem_refs] at hr
      rcases hr with hr | hr | hr | hr | hr | hr
      · exact State.mem_refs.mpr (.inl hr)
      · exact hex (List.mem_append_left _ (Option.mem_toList.mpr hr))
      · exact State.mem_refs.mpr (.inr (.inr (.inl (hleft ▸ hr))))
      · exact State.mem_refs_of_mem_called hr
      · exact hex (List.mem_append_right _ hr)
      · exact State.mem_refs.mpr (.inr (.inr (.inr (.inr (.inr hr)))))
  exact ⟨hfollows, h.follows hfollows h.distinct (hleft ▸ h.left)⟩

theorem Kept.taskEnds (h : Kept s) (outcome : Except String Unit) :
    Follows s (s.taskEnds outcome) ∧ Kept (s.taskEnds outcome) := by
  unfold State.taskEnds
  cases hp : s.phase with
  | running r startedAt due =>
    refine h.finish (p := .executing due) (m := s.manual) ?_ ?_ ?_ ?_
    · unfold State.executing
      rw [hp]
      exact List.sublist_cons_self r _
    · intro r' hr
      rw [hp] at hr
      exact .inr (Option.some.inj hr).symm
    · rw [hp]
      rfl
    · rw [hp]
      rfl
  | _ => exact ⟨.refl s, h⟩

theorem Kept.callEnds (h : Kept s) (k : ℕ) (outcome : Except String Unit) :
    Follows s (s.callEnds k outcome) ∧ Kept (s.callEnds k outcome) := by
  unfold State.callEnds
  cases s.manual[k]? with
  | none => exact ⟨.refl s, h⟩
  | some call =>
    obtain ⟨r, startedAt⟩ := call
    refine h.finish (p := s.phase) (m := s.manual.eraseIdx k) ?_ (fun _ hr => .inl hr) rfl rfl
    exact ((List.eraseIdx_sublist s.manual k).map _).append_left _

theorem Kept.tick (h : Kept s) (elapsed : ℕ) :
    Follows s { s with clock := s.clock + elapsed } ∧ Kept { s with clock := s.clock + elapsed } := by
  have hfollows : Follows s { s with clock := s.clock + elapsed } := by
    refine ⟨?_, le_rfl, rfl, .refl _, fun _ _ => ⟨rfl, rfl⟩, fun _ _ => .inl rfl,
      fun _ hr => .inl hr, fun _ hr => .inl hr, fun _ hr => .inl hr⟩
    change s.clock ≤ s.clock + elapsed
    omega
  exact ⟨hfollows, h.follows hfollows h.distinct h.left⟩

end Executions

section Starts

variable {s : State} {r k : ℕ} {due : List ℕ} {e : Event}

theorem orderly_iff_of_start {s' : State} {x : Start} (hs : Orderly s)
    (hnames : s'.executingNames.Perm (x.name :: s.executingNames))
    (hstarts : s'.history.starts = x :: s.history.starts) :
    Orderly s' ↔ x.name ∉ s.executingNames ∧ x.stopped = false ∧
      (x.trigger = .loop → ∀ y ∈ s.loopStarts, y.name = x.name →
        y.instant + seconds x.interval ≤ x.instant) := by
  have hexclusive : s'.executingNames.Nodup ↔ x.name ∉ s.executingNames := by
    rw [hnames.nodup_iff, List.nodup_cons, and_iff_left hs.exclusive]
  have hapart : (s'.loopStarts.Pairwise fun later earlier =>
      earlier.name = later.name → earlier.instant + seconds later.interval ≤ later.instant) ↔
      (x.trigger = .loop → ∀ y ∈ s.loopStarts, y.name = x.name →
        y.instant + seconds x.interval ≤ x.instant) := by
    by_cases hloop : x.trigger = .loop
    · have hcons : s'.loopStarts = x :: s.loopStarts := by
        unfold State.loopStarts
        rw [hstarts, List.filter_cons_of_pos (by simpa using hloop)]
      rw [hcons, List.pairwise_cons, and_iff_left hs.apart, forall_prop_of_true hloop]
    · have hsame : s'.loopStarts = s.loopStarts := by
        unfold State.loopStarts
        rw [hstarts, List.filter_cons_of_neg (by simpa using hloop)]
      rw [hsame]
      exact iff_of_true hs.apart fun h => absurd h hloop
  constructor
  · intro h
    refine ⟨hexclusive.mp h.exclusive, ?_, hapart.mp h.apart⟩
    exact h.obedient x (hstarts ▸ List.mem_cons_self)
  · rintro ⟨hfree, hobedient, hspaced⟩
    refine ⟨hexclusive.mpr hfree, ?_, hapart.mpr hspaced⟩
    rw [hstarts, List.forall_mem_cons]
    exact ⟨hobedient, hs.obedient⟩

theorem State.loop_executing (hphase : s.phase = .executing (r :: due)) :
    s.loop = { s.note (s.start r .loop) with phase := .running r s.clock due } := by
  unfold State.loop
  rw [hphase]

theorem orderly_loop_iff (h : Kept s) (hs : Orderly s)
    (hphase : s.phase = .executing (r :: due)) :
    Orderly s.loop ↔ Admissible s r ∧ Renewed s r := by
  rw [State.loop_executing hphase]
  have hnames : State.executingNames
      { s.note (s.start r .loop) with phase := .running r s.clock due } =
        (s.heap r).name :: s.executingNames := by
    unfold State.executingNames State.executing
    rw [hphase]
    rfl
  rw [orderly_iff_of_start hs (hnames ▸ .refl _) rfl, Admissible, and_assoc]
  refine and_congr_right fun _ => and_congr decide_eq_false_iff_not ?_
  constructor
  · exact fun hspaced x hx hname _ => hspaced rfl x hx hname
  · intro hrenewed _ x hx hname
    by_cases hx' : x.task = r
    · refine h.due r ?_ x hx hx'
      rw [hphase]
      exact List.mem_cons_self
    · exact hrenewed x hx hname hx'

theorem orderly_callStarts_iff (hs : Orderly s) (hk : s.called[k]? = some r) :
    Orderly (s.callStarts k) ↔ Admissible s r := by
  unfold State.callStarts
  rw [hk]
  have hnames : (State.executingNames
      { s.note (s.start r .call) with
        called := s.called.eraseIdx k
        manual := s.manual ++ [(r, s.clock)] }).Perm ((s.heap r).name :: s.executingNames) := by
    unfold State.executingNames State.executing
    dsimp only [State.note]
    rw [List.map_append (f := Prod.fst), ← List.append_assoc, List.map_append]
    exact List.perm_append_singleton _ _
  rw [orderly_iff_of_start hs hnames rfl, Admissible]
  refine and_congr_right fun _ => ?_
  rw [and_iff_left fun hloop => by cases hloop]
  exact decide_eq_false_iff_not

theorem Kept.locking (h : Kept s) (f : State → State) (hf : Follows s (f s) ∧ Kept (f s)) :
    Follows s (s.locking f) ∧ Kept (s.locking f) := by
  unfold State.locking
  split_ifs
  · exact ⟨.refl s, h⟩
  · exact hf

theorem Kept.quiet (h : Kept s) (hloop : ∀ r due, e = .loop → s.phase ≠ .executing (r :: due))
    (hcall : ∀ k r, e = .callStarts k → s.called[k]? ≠ some r) :
    Follows s (step s e) ∧ Kept (step s e) := by
  cases e with
  | tick elapsed => exact h.tick elapsed
  | loop => exact h.loop fun r due => hloop r due rfl
  | taskEnds outcome => exact h.taskEnds outcome
  | registerTask name interval enabled =>
    exact h.locking (fun s => s.registerTask name interval enabled) (h.registerTask interval enabled)
  | unregisterTask name =>
    exact h.locking (fun s => (s.unregisterTask name).2) (h.unregisterTask name)
  | enableTask name =>
    refine h.locking (fun s => (s.enableTask name).2) ?_
    dsimp only [State.enableTask]
    cases s.tasks.lookup name with
    | none => exact ⟨.refl s, h⟩
    | some r => exact h.setEnabled r true _
  | disableTask name =>
    refine h.locking (fun s => (s.disableTask name).2) ?_
    dsimp only [State.disableTask]
    cases s.tasks.lookup name with
    | none => exact ⟨.refl s, h⟩
    | some r => exact h.setEnabled r false _
  | runTaskNow name => exact h.locking (fun s => s.runTaskNow name) (h.runTaskNow name)
  | callStarts k =>
    have hnone : s.called[k]? = none :=
      Option.eq_none_iff_forall_ne_some.mpr fun r => hcall k r rfl
    have hstill : s.callStarts k = s := by
      unfold State.callStarts
      rw [hnone]
    dsimp only [step]
    rw [hstill]
    exact ⟨.refl s, h⟩
  | callEnds k outcome => exact h.callEnds k outcome

theorem State.refs_loop_subset (hphase : s.phase = .executing (r :: due)) : s.loop.refs ⊆ s.refs := by
  have hleft : ∀ r' ∈ r :: due, r' ∈ s.refs := fun r' hr' =>
    State.mem_refs.mpr (.inr (.inr (.inl (hphase ▸ hr'))))
  rw [State.loop_executing hphase]
  intro r' hr'
  rw [State.mem_refs] at hr'
  rcases hr' with hr' | hr' | hr' | hr' | hr' | hr'
  · exact State.mem_refs.mpr (.inl hr')
  · exact hleft r' (Option.some.inj hr' ▸ List.mem_cons_self)
  · exact hleft r' (List.mem_cons_of_mem r hr')
  · exact State.mem_refs_of_mem_called hr'
  · exact State.mem_refs.mpr (.inr (.inr (.inr (.inr (.inl hr')))))
  · rcases List.mem_cons.mp hr' with rfl | hold
    · exact hleft r' List.mem_cons_self
    · exact State.mem_refs.mpr (.inr (.inr (.inr (.inr (.inr hold)))))

theorem Kept.loopStart (h : Kept s) (hphase : s.phase = .executing (r :: due)) : Kept s.loop := by
  have hknown : ∀ r' ∈ s.loop.refs, r' < s.next := fun r' hr' =>
    h.known r' (State.refs_loop_subset hphase hr')
  have hnodup := h.left
  have hdue := h.due
  rw [hphase] at hnodup hdue
  rw [State.loop_executing hphase] at hknown ⊢
  constructor
  · exact hknown
  · exact h.distinct
  · exact (List.nodup_cons.mp hnodup).2
  · exact List.forall_mem_cons.mpr ⟨⟨rfl, rfl, le_rfl⟩, h.begun⟩
  · intro x hx hrunning
    obtain ⟨hmem, hloop⟩ := State.mem_loopStarts.mp hx
    rcases List.mem_cons.mp hmem with rfl | hold
    · exact absurd rfl hrunning
    · refine h.ran x (State.mem_loopStarts.mpr ⟨hold, hloop⟩) ?_
      rw [hphase]
      exact (Option.some_ne_none x.task).symm
  · intro r' hr' x hx hxr
    obtain ⟨hmem, hloop⟩ := State.mem_loopStarts.mp hx
    rcases List.mem_cons.mp hmem with rfl | hold
    · subst hxr
      exact absurd hr' (List.nodup_cons.mp hnodup).1
    · exact hdue r' (List.mem_cons_of_mem r hr') x (State.mem_loopStarts.mpr ⟨hold, hloop⟩) hxr

theorem Kept.callStarts (h : Kept s) (hk : s.called[k]? = some r) : Kept (s.callStarts k) := by
  have hr : r ∈ s.refs := State.mem_refs_of_mem_called (List.mem_of_getElem? hk)
  have hsame : State.loopStarts
      { s.note (s.start r .call) with
        called := s.called.eraseIdx k
        manual := s.manual ++ [(r, s.clock)] } = s.loopStarts := rfl
  unfold State.callStarts
  rw [hk]
  constructor
  · intro r' hr'
    apply h.known
    rw [State.mem_refs] at hr'
    rcases hr' with hr' | hr' | hr' | hr' | hr' | hr'
    · exact State.mem_refs.mpr (.inl hr')
    · exact State.mem_refs.mpr (.inr (.inl hr'))
    · exact State.mem_refs.mpr (.inr (.inr (.inl hr')))
    · exact State.mem_refs_of_mem_called ((List.eraseIdx_sublist s.called k).subset hr')
    · rw [List.map_append] at hr'
      rcases List.mem_append.mp hr' with hold | hnew
      · exact State.mem_refs.mpr (.inr (.inr (.inr (.inr (.inl hold)))))
      · exact List.mem_singleton.mp hnew ▸ hr
    · rcases List.mem_cons.mp hr' with rfl | hold
      · exact hr
      · exact State.mem_refs.mpr (.inr (.inr (.inr (.inr (.inr hold)))))
  · exact h.distinct
  · exact h.left
  · exact List.forall_mem_cons.mpr ⟨⟨rfl, rfl, le_rfl⟩, h.begun⟩
  · exact hsame ▸ h.ran
  · exact hsame ▸ h.due

end Starts

section Runs

variable {s : State} {e : Event}

theorem Kept.initial (clock wakeInterval : ℤ) : Kept (.initial clock wakeInterval) where
  known _ hr := absurd hr List.not_mem_nil
  distinct := List.nodup_nil
  left := List.nodup_nil
  begun _ hx := absurd hx List.not_mem_nil
  ran _ hx := absurd hx List.not_mem_nil
  due _ hr := absurd hr List.not_mem_nil

theorem Orderly.initial (clock wakeInterval : ℤ) : Orderly (.initial clock wakeInterval) where
  exclusive := List.nodup_nil
  obedient _ hx := absurd hx List.not_mem_nil
  apart := List.Pairwise.nil

theorem starts_or (s : State) (e : Event) :
    (∃ r due, e = .loop ∧ s.phase = .executing (r :: due)) ∨
      (∃ k r, e = .callStarts k ∧ s.called[k]? = some r) ∨
      (∀ r due, e = .loop → s.phase ≠ .executing (r :: due)) ∧
        ∀ k r, e = .callStarts k → s.called[k]? ≠ some r := by
  by_cases hloop : ∃ r due, e = .loop ∧ s.phase = .executing (r :: due)
  · exact .inl hloop
  · by_cases hcall : ∃ k r, e = .callStarts k ∧ s.called[k]? = some r
    · exact .inr (.inl hcall)
    · refine .inr (.inr ⟨?_, ?_⟩)
      · exact fun r due he hphase => hloop ⟨r, due, he, hphase⟩
      · exact fun k r he hk => hcall ⟨k, r, he, hk⟩

theorem Kept.step (h : Kept s) : Kept (step s e) := by
  rcases starts_or s e with ⟨r, due, rfl, hphase⟩ | ⟨k, r, rfl, hk⟩ | ⟨hloop, hcall⟩
  · exact h.loopStart hphase
  · exact h.callStarts hk
  · exact (h.quiet hloop hcall).2

theorem Kept.orderly_step_iff (h : Kept s) (hs : Orderly s) :
    Orderly (Scheduler.step s e) ↔ Proper s e := by
  rcases starts_or s e with ⟨r, due, rfl, hphase⟩ | ⟨k, r, rfl, hk⟩ | ⟨hloop, hcall⟩
  · refine (orderly_loop_iff h hs hphase).trans ⟨?_, fun hproper => hproper r due hphase⟩
    rintro hadmissible r' due' hphase'
    obtain ⟨rfl, rfl⟩ := List.cons.inj (Phase.executing.inj (hphase.symm.trans hphase'))
    exact hadmissible
  · refine (orderly_callStarts_iff hs hk).trans ⟨?_, fun hproper => hproper r hk⟩
    rintro hadmissible r' hk'
    obtain rfl := Option.some.inj (hk.symm.trans hk')
    exact hadmissible
  · refine iff_of_true (hs.follows h (h.quiet hloop hcall).1) ?_
    cases e with
    | loop => exact fun r due hphase => absurd hphase (hloop r due rfl)
    | callStarts k => exact fun r hk => absurd hk (hcall k r rfl)
    | _ => trivial

end Runs

section Alone

variable {s s' : State} {e : Event} {r : ℕ}

def Event.ofLoop : Event → Bool
  | .tick _ => true
  | .loop => true
  | .taskEnds _ => true
  | _ => false

/-- No call is made, and the registered tasks stay those that they are. -/
structure Unchanged (s s' : State) : Prop where
  tasks : s'.tasks = s.tasks
  next : s'.next = s.next
  called : s'.called = s.called
  manual : s'.manual = s.manual
  stopped : s'.history.stopped = s.history.stopped
  same : ∀ r, (s'.heap r).name = (s.heap r).name ∧ (s'.heap r).interval = (s.heap r).interval

theorem Unchanged.refl (s : State) : Unchanged s s :=
  ⟨rfl, rfl, rfl, rfl, rfl, fun _ => ⟨rfl, rfl⟩⟩

theorem unchanged_of_loop (he : e.ofLoop = true) (s : State) : Unchanged s (step s e) := by
  cases e with
  | tick elapsed => exact ⟨rfl, rfl, rfl, rfl, rfl, fun _ => ⟨rfl, rfl⟩⟩
  | loop =>
    dsimp only [step, State.loop]
    split
    · split_ifs
      · exact ⟨rfl, rfl, rfl, rfl, rfl, fun _ => ⟨rfl, rfl⟩⟩
      · exact .refl s
    · exact ⟨rfl, rfl, rfl, rfl, rfl, fun _ => ⟨rfl, rfl⟩⟩
    · exact ⟨rfl, rfl, rfl, rfl, rfl, fun _ => ⟨rfl, rfl⟩⟩
    · exact ⟨rfl, rfl, rfl, rfl, rfl, fun _ => ⟨rfl, rfl⟩⟩
    · exact ⟨rfl, rfl, rfl, rfl, rfl, fun _ => ⟨rfl, rfl⟩⟩
    · exact .refl s
  | taskEnds outcome =>
    dsimp only [step, State.taskEnds]
    split
    next r startedAt due _ =>
      refine ⟨rfl, rfl, rfl, rfl, rfl, fun r' => ?_⟩
      by_cases hr : r' = r
      · subst hr
        simp [State.finish]
      · simp [State.finish, hr]
    next => exact .refl s
  | _ => cases he

/-- The loop runs alone, for tasks with different names. -/
structure Alone (s : State) : Prop where
  kept : Kept s
  orderly : Orderly s
  called : s.called = []
  manual : s.manual = []
  stopped : s.history.stopped = []
  byLoop : ∀ x ∈ s.history.starts, x.trigger = .loop
  refs : ∀ r ∈ s.refs, r ∈ s.tasks.map Prod.snd
  names : (s.tasks.map fun entry => (s.heap entry.2).name).Nodup

theorem Alone.eq_of_name {r' : ℕ} (h : Alone s) (hr : r ∈ s.refs) (hr' : r' ∈ s.refs)
    (hname : (s.heap r).name = (s.heap r').name) : r = r' := by
  obtain ⟨entry, hentry, rfl⟩ := List.mem_map.mp (h.refs r hr)
  obtain ⟨entry', hentry', rfl⟩ := List.mem_map.mp (h.refs r' hr')
  exact congrArg Prod.snd (List.inj_on_of_nodup_map h.names hentry hentry' hname)

theorem Alone.proper (h : Alone s) (he : e.ofLoop = true) : Proper s e := by
  cases e with
  | loop =>
    intro r due hphase
    have hr : r ∈ s.refs :=
      State.mem_refs.mpr (.inr (.inr (.inl (hphase ▸ List.mem_cons_self))))
    refine ⟨⟨?_, ?_⟩, ?_⟩
    · have hnone : s.executingNames = [] := by
        unfold State.executingNames State.executing
        rw [hphase, h.manual]
        rfl
      rw [hnone]
      exact List.not_mem_nil
    · rw [h.stopped]
      exact List.not_mem_nil
    · intro x hx hname hne
      have hmem := (State.mem_loopStarts.mp hx).1
      have hxr : x.task ∈ s.refs :=
        State.mem_refs.mpr (.inr (.inr (.inr (.inr (.inr (List.mem_map_of_mem hmem))))))
      exact absurd (h.eq_of_name hxr hr ((h.kept.begun x hmem).1.symm.trans hname)) hne
  | tick elapsed => trivial
  | taskEnds outcome => trivial
  | _ => cases he

theorem Alone.step (h : Alone s) (he : e.ofLoop = true) : Alone (step s e) := by
  have hsame := unchanged_of_loop he s
  have hstarts : ∀ x ∈ (Scheduler.step s e).history.starts, x.trigger = .loop := by
    rcases starts_or s e with ⟨r, due, rfl, hphase⟩ | ⟨k, r, rfl, _⟩ | ⟨hloop, hcall⟩
    · dsimp only [Scheduler.step]
      rw [State.loop_executing hphase]
      exact List.forall_mem_cons.mpr ⟨rfl, h.byLoop⟩
    · cases he
    · rw [(h.kept.quiet hloop hcall).1.starts]
      exact h.byLoop
  have hrefs : (Scheduler.step s e).refs ⊆ s.refs := by
    intro r hr
    rcases starts_or s e with ⟨r', due, rfl, hphase⟩ | ⟨k, r', rfl, _⟩ | ⟨hloop, hcall⟩
    · exact State.refs_loop_subset hphase hr
    · cases he
    · rcases (h.kept.quiet hloop hcall).1.refs r hr with hold | ⟨hle, hlt⟩
      · exact hold
      · rw [hsame.next] at hlt
        omega
  have hnames : (fun entry : String × ℕ => ((Scheduler.step s e).heap entry.2).name) =
      fun entry => (s.heap entry.2).name := funext fun entry => (hsame.same entry.2).1
  refine ⟨h.kept.step, (h.kept.orderly_step_iff h.orderly).mpr (h.proper he),
    hsame.called.trans h.called, hsame.manual.trans h.manual, hsame.stopped.trans h.stopped,
    hstarts, ?_, ?_⟩
  · rw [hsame.tasks]
    exact fun r hr => h.refs r (hrefs hr)
  · rw [hsame.tasks, hnames]
    exact h.names

theorem Unchanged.trans {s'' : State} (h : Unchanged s s') (h' : Unchanged s' s'') :
    Unchanged s s'' where
  tasks := h'.tasks.trans h.tasks
  next := h'.next.trans h.next
  called := h'.called.trans h.called
  manual := h'.manual.trans h.manual
  stopped := h'.stopped.trans h.stopped
  same r := ⟨(h'.same r).1.trans (h.same r).1, (h'.same r).2.trans (h.same r).2⟩

theorem Alone.run {es : List Event} (h : Alone s) (hes : ∀ e ∈ es, e.ofLoop = true) :
    Alone (run Scheduler.step s es) ∧ Unchanged s (Library.run Scheduler.step s es) := by
  induction es generalizing s with
  | nil => exact ⟨h, .refl s⟩
  | cons e es ih =>
    obtain ⟨he, hrest⟩ := List.forall_mem_cons.mp hes
    obtain ⟨halone, hsame⟩ := ih (h.step he) hrest
    exact ⟨halone, (unchanged_of_loop he s).trans hsame⟩

def registered (clock wakeInterval : ℤ) (l : List (String × ℤ)) : State :=
  Library.run Scheduler.step (.initial clock wakeInterval)
    (l.map fun task => .registerTask task.1 task.2 true)

/-- Tasks of a list have been registered, and nothing else has happened. -/
structure Registered (l : List (String × ℤ)) (s : State) : Prop where
  kept : Kept s
  entries : ∀ entry ∈ s.tasks, (s.heap entry.2).name = entry.1 ∧
    (entry.1, (s.heap entry.2).interval) ∈ l
  keys : (s.tasks.map Prod.fst).Nodup
  idle : s.phase.holdsLock = false ∧ s.phase.task = none ∧ s.phase.left = []
  called : s.called = []
  manual : s.manual = []
  history : s.history = {}

theorem Registered.registerTask {l : List (String × ℤ)} (h : Registered l s)
    {task : String × ℤ} (htask : task ∈ l) :
    Registered l (Scheduler.step s (.registerTask task.1 task.2 true)) := by
  have hstep : Scheduler.step s (.registerTask task.1 task.2 true) =
      s.registerTask task.1 task.2 true := by
    dsimp only [Scheduler.step, State.locking]
    rw [if_neg (by simp [h.idle.1])]
  rw [hstep]
  refine ⟨(h.kept.registerTask task.2 true).2, ?_, nodup_keys_setEntry h.keys, h.idle, h.called,
    h.manual, ?_⟩
  · intro entry hentry
    rcases mem_of_mem_setEntry hentry with rfl | hold
    · simp [State.registerTask, htask]
    · have hlt := h.kept.known entry.2 (State.mem_refs.mpr (.inl (List.mem_map_of_mem hold)))
      simpa [State.registerTask, hlt.ne] using h.entries entry hold
  · simp [State.registerTask, h.history]

theorem Registered.run {l l' : List (String × ℤ)} (h : Registered l s) (hl : l' ⊆ l) :
    Registered l (Library.run Scheduler.step s
      (l'.map fun task => .registerTask task.1 task.2 true)) := by
  induction l' generalizing s with
  | nil => exact h
  | cons task l' ih =>
    obtain ⟨htask, hrest⟩ := List.cons_subset.mp hl
    exact ih (h.registerTask htask) hrest

theorem registered_spec (clock wakeInterval : ℤ) (l : List (String × ℤ)) :
    Registered l (registered clock wakeInterval l) := by
  have hinitial : Registered l (.initial clock wakeInterval) :=
    ⟨.initial clock wakeInterval, fun _ h => absurd h List.not_mem_nil, List.nodup_nil,
      ⟨rfl, rfl, rfl⟩, rfl, rfl, rfl⟩
  exact hinitial.run (List.Subset.refl l)

theorem Registered.alone {l : List (String × ℤ)} (h : Registered l s) : Alone s where
  kept := h.kept
  orderly := by
    have hexecuting : s.executingNames = [] := by
      unfold State.executingNames State.executing
      rw [h.idle.2.1, h.manual]
      rfl
    have hstarts : s.history.starts = [] := by rw [h.history]
    refine ⟨hexecuting ▸ List.nodup_nil, ?_, ?_⟩
    · exact hstarts ▸ fun _ hx => absurd hx List.not_mem_nil
    · unfold State.loopStarts
      rw [hstarts]
      exact List.Pairwise.nil
  called := h.called
  manual := h.manual
  stopped := by rw [h.history]
  byLoop := by
    rw [h.history]
    exact fun _ hx => absurd hx List.not_mem_nil
  refs r hr := by
    rw [State.mem_refs, h.idle.2.1, h.idle.2.2, h.called, h.manual, h.history] at hr
    simpa using hr
  names := by
    have hnames : (s.tasks.map fun entry => (s.heap entry.2).name) = s.tasks.map Prod.fst :=
      List.map_congr_left fun entry hentry => (h.entries entry hentry).1
    rw [hnames]
    exact h.keys

end Alone

section Failures

variable {s s' : State} {e : Event}

def ScheduledTask.unjudged (t : ScheduledTask) : ScheduledTask :=
  { t with runCount := 0, nextRun := none, lastError := none }

def State.unjudged (s : State) : State :=
  { s with heap := fun r => (s.heap r).unjudged }

def Event.succeeding : Event → Event
  | .taskEnds _ => .taskEnds (.ok ())
  | .callEnds k _ => .callEnds k (.ok ())
  | e => e

theorem ScheduledTask.unjudged_finished (t : ScheduledTask) (outcome : Except String Unit)
    (startedAt now : ℤ) :
    (t.finished outcome startedAt now).unjudged =
      (t.unjudged.finished (.ok ()) startedAt now).unjudged := by
  cases outcome <;> rfl

theorem unjudged_update (heap : ℕ → ScheduledTask) (r : ℕ) (t : ScheduledTask) :
    (fun r' => (Function.update heap r t r').unjudged) =
      Function.update (fun r' => (heap r').unjudged) r t.unjudged :=
  Function.comp_update ScheduledTask.unjudged heap r t

theorem State.unjudged_finish (s : State) (r : ℕ) (startedAt : ℤ)
    (outcome : Except String Unit) :
    (s.finish r startedAt outcome).unjudged =
      (s.unjudged.finish r startedAt (.ok ())).unjudged := by
  unfold State.finish State.unjudged
  rw [unjudged_update, unjudged_update, ScheduledTask.unjudged_finished]
  rfl

theorem Event.succeeding_succeeding (e : Event) : e.succeeding.succeeding = e.succeeding := by
  cases e <;> rfl

theorem State.unjudged_setEnabled (s : State) (r : ℕ) (enabled : Bool) :
    (s.setEnabled r enabled).unjudged = (s.unjudged.setEnabled r enabled).unjudged := by
  unfold State.setEnabled State.unjudged
  rw [unjudged_update, unjudged_update]
  rfl

theorem State.unjudged_loop (s : State) : s.loop.unjudged = s.unjudged.loop.unjudged := by
  have hphase : s.unjudged.phase = s.phase := rfl
  unfold State.loop
  rw [hphase]
  cases s.phase with
  | asleep wakesAt =>
    dsimp only
    have hclock : s.unjudged.clock = s.clock := rfl
    rw [hclock]
    split_ifs <;> rfl
  | collecting rest due =>
    cases rest with
    | nil => rfl
    | cons r rest => rfl
  | executing due =>
    cases due with
    | nil => rfl
    | cons r due => rfl
  | running r startedAt due => rfl

theorem State.unjudged_locking (s : State) {f : State → State}
    (hf : (f s).unjudged = (f s.unjudged).unjudged) :
    (s.locking f).unjudged = (s.unjudged.locking f).unjudged := by
  have hphase : s.unjudged.phase = s.phase := rfl
  unfold State.locking
  rw [hphase]
  split_ifs
  · rfl
  · exact hf

/-- What a step does to a state, except for what it writes of a success, does not depend on
whether a task fails. -/
theorem unjudged_step (s : State) (e : Event) :
    (step s e).unjudged = (step s.unjudged e.succeeding).unjudged := by
  have htasks : s.unjudged.tasks = s.tasks := rfl
  cases e with
  | tick elapsed => rfl
  | loop => exact s.unjudged_loop
  | taskEnds outcome =>
    have hphase : s.unjudged.phase = s.phase := rfl
    dsimp only [step, Event.succeeding, State.taskEnds]
    rw [hphase]
    cases s.phase with
    | running r startedAt due =>
      exact congrArg (fun s : State => { s with phase := .executing due })
        (s.unjudged_finish r startedAt outcome)
    | _ => rfl
  | registerTask name interval enabled =>
    refine s.unjudged_locking (f := fun s => s.registerTask name interval enabled) ?_
    unfold State.registerTask State.unjudged
    rw [unjudged_update, unjudged_update]
    rfl
  | unregisterTask name =>
    refine s.unjudged_locking (f := fun s => (s.unregisterTask name).2) ?_
    dsimp only [State.unregisterTask]
    rw [htasks]
    cases s.tasks.lookup name with
    | none => rfl
    | some r => rfl
  | enableTask name =>
    refine s.unjudged_locking (f := fun s => (s.enableTask name).2) ?_
    dsimp only [State.enableTask]
    rw [htasks]
    cases s.tasks.lookup name with
    | none => rfl
    | some r =>
      exact congrArg (fun s' : State => { s' with history := { s.history with
        stopped := s.history.stopped.filter (· ≠ name) } }) (s.unjudged_setEnabled r true)
  | disableTask name =>
    refine s.unjudged_locking (f := fun s => (s.disableTask name).2) ?_
    dsimp only [State.disableTask]
    rw [htasks]
    cases s.tasks.lookup name with
    | none => rfl
    | some r =>
      exact congrArg (fun s' : State => { s' with history := { s.history with
        stopped := name :: s.history.stopped } }) (s.unjudged_setEnabled r false)
  | runTaskNow name =>
    refine s.unjudged_locking (f := fun s => s.runTaskNow name) ?_
    dsimp only [State.runTaskNow]
    rw [htasks]
    cases s.tasks.lookup name with
    | none => rfl
    | some r => rfl
  | callStarts k =>
    have hcalled : s.unjudged.called = s.called := rfl
    dsimp only [step, Event.succeeding, State.callStarts]
    rw [hcalled]
    cases s.called[k]? with
    | none => rfl
    | some r => rfl
  | callEnds k outcome =>
    have hmanual : s.unjudged.manual = s.manual := rfl
    dsimp only [step, Event.succeeding, State.callEnds]
    rw [hmanual]
    cases s.manual[k]? with
    | none => rfl
    | some call =>
      obtain ⟨r, startedAt⟩ := call
      exact congrArg (fun s' : State => { s' with manual := s.manual.eraseIdx k })
        (s.unjudged_finish r startedAt outcome)

theorem alike_step (h : s.unjudged = s'.unjudged) :
    (step s e).unjudged = (step s' e.succeeding).unjudged := by
  rw [unjudged_step s e, h, unjudged_step s' e.succeeding, Event.succeeding_succeeding]

theorem starts_run_succeeding (s : State) (es : List Event) :
    (run step s es).history.starts =
      (run step s (es.map Event.succeeding)).history.starts := by
  have halike : (run step s es).unjudged = (run step s (es.map Event.succeeding)).unjudged :=
    alike_run (R := fun s s' : State => s.unjudged = s'.unjudged) (fun _ _ _ h => alike_step h)
      rfl es
  have hstarts := congrArg (fun s : State => s.history.starts) halike
  exact hstarts

end Failures

section Runs

/-- In every state reached the executions are in order, and they would have started just so if no
task had failed. -/
def RunsInOrder (s : State) (es : List Event) : Prop :=
  (∀ pre, pre <+: es → Orderly (run step s pre)) ∧
    ∀ pre, pre <+: es → (run step s pre).history.starts =
      (run step s (pre.map Event.succeeding)).history.starts

/-- In every order of steps, the executions are in order exactly if each is started properly. -/
theorem runsInOrder_iff (clock wakeInterval : ℤ) (es : List Event) :
    RunsInOrder (.initial clock wakeInterval) es ↔
      Meets step Proper (.initial clock wakeInterval) es := by
  have horderly : (∀ pre, pre <+: es → Orderly (run step (.initial clock wakeInterval) pre)) ↔
      Meets step Proper (.initial clock wakeInterval) es :=
    forall_prefix_iff_meets (I := Kept) (fun _ _ hkept hs => hkept.orderly_step_iff hs)
      (fun _ _ hkept _ _ => hkept.step) es (.initial clock wakeInterval)
      (.initial clock wakeInterval)
  exact (and_iff_left fun pre _ => starts_run_succeeding _ pre).trans horderly

/-- The loop has listed the tasks, of which there are two, and started the first. -/
def started : List Event :=
  [.registerTask "ski_aki_backfill" 3600 true, .registerTask "update_check" 86400 true,
    .tick 30000000, .loop, .loop, .loop, .loop, .loop]

/-- A call runs a task that the loop is running, the loop runs a task that was disabled meanwhile,
and a task that is registered anew runs again at once. -/
theorem executions_out_of_order :
    ¬RunsInOrder (.initial 0 60) (started ++ [.runTaskNow "ski_aki_backfill", .callStarts 0]) ∧
    ¬RunsInOrder (.initial 0 60) (started ++
      [.disableTask "update_check", .taskEnds (.ok ()), .loop]) ∧
    ¬RunsInOrder (.initial 0 60) (started ++
      [.registerTask "ski_aki_backfill" 3600 true, .taskEnds (.ok ()), .loop, .taskEnds (.ok ()),
        .loop, .tick 60000000, .loop, .loop, .loop, .loop, .loop]) := by
  refine ⟨fun h => ?_, fun h => ?_, fun h => ?_⟩
  · exact absurd (h.1 _ List.prefix_rfl).exclusive (by decide +kernel)
  · exact absurd (h.1 _ List.prefix_rfl).obedient (by decide +kernel)
  · exact absurd (h.1 _ List.prefix_rfl).apart (by decide +kernel)

end Runs

end Scheduler

end CaManager
